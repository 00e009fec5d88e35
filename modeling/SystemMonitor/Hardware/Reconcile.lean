import SystemMonitor.Hardware.Generation
import SystemMonitor.Lib.Reconcile
import SystemMonitor.Pages.Rows

/-! Reconciliation of adapters, batteries and accelerators with all their fields.

The newly discovered lists are sorted by identity and compared with the lists before. A record
that is found again is the record it was, patched with what belongs to the discovery.
`hardware_topology_reconcile_spec` says what is published, when a change is reported and that
no order matters. -/
namespace SystemMonitor.Hardware.Topology
open Lib Pages
open Storage (strcmpKey)

/-! ### Records -/

/-- What is sampled of an adapter. -/
structure LsmGpuMetrics where
  activeEngine : Chars 64 := .empty
  activeEnginePercent : Double := .finite 0
  utilizationPercent : Double := .finite 0
  memoryPercent : Double := .finite 0
  memoryUsedBytes : Nat := 0
  memoryTotalBytes : Nat := 0
  temperatureC : Double := .finite 0
  temperatureWarningC : Double := .finite 0
  temperatureCriticalC : Double := .finite 0
  coreClockMhz : Double := .finite 0
  memoryClockMhz : Double := .finite 0
  memoryBusyPercent : Double := .finite 0
  encoderPercent : Double := .finite 0
  decoderPercent : Double := .finite 0
  renderPercent : Double := .finite 0
  computePercent : Double := .finite 0
  videoPercent : Double := .finite 0
  videoEnhancePercent : Double := .finite 0
  copyPercent : Double := .finite 0
  powerWatts : Double := .finite 0
  fanPercent : Double := .finite 0
  supportedMetrics : Bool := false
  utilizationAvailable : Bool := false
  memoryUsageAvailable : Bool := false
  memoryBusyAvailable : Bool := false
  encoderAvailable : Bool := false
  decoderAvailable : Bool := false
  renderAvailable : Bool := false
  computeAvailable : Bool := false
  videoAvailable : Bool := false
  videoEnhanceAvailable : Bool := false
  copyAvailable : Bool := false
  temperatureAvailable : Bool := false
  temperatureWarningAvailable : Bool := false
  temperatureCriticalAvailable : Bool := false
  coreClockAvailable : Bool := false
  memoryClockAvailable : Bool := false
  powerAvailable : Bool := false
  fanAvailable : Bool := false

structure LsmGpuInfo extends LsmGpuMetrics where
  name : Chars 128 := .empty
  displayIdentifier : Chars 64 := .empty
  driver : Chars 64 := .empty
  driverVersion : Chars 96 := .empty
  pciLocation : Chars 32 := .empty
  platformIdentity : Chars 512 := .empty
  engineMetricsCapable : Bool := false
  sharedSystemMemory : Bool := false
  integratedCooling : Bool := false
  metricsSource : Chars 96 := .empty

/-- What is sampled of a battery. -/
structure LsmBatteryMetrics where
  health : Chars 64 := .empty
  capacityLevel : Chars 32 := .empty
  energyNowWh : Double := .finite 0
  energyFullWh : Double := .finite 0
  energyDesignWh : Double := .finite 0
  powerWatts : Double := .finite 0
  voltageVolts : Double := .finite 0
  currentAmps : Double := .finite 0
  temperatureC : Double := .finite 0
  secondsRemaining : Nat := 0
  cycleCount : Nat := 0
  onAcPower : Bool := false
  onAcPowerAvailable : Bool := false

structure LsmBatteryInfo extends LsmBatteryMetrics where
  name : Chars 64 := .empty
  model : Chars 128 := .empty
  manufacturer : Chars 128 := .empty
  technology : Chars 64 := .empty
  status : Chars 64 := .empty
  scope : Chars 32 := .empty
  serial : Chars 64 := .empty
  connection : Chars 64 := .empty
  batterySource : Chars 96 := .empty
  deviceType : Chars 64 := .empty
  modalias : Chars 128 := .empty
  capacityPercent : Double := .nan
  supplementalCapacityPercent : Double := .finite 0
  hasSupplementalCapacity : Bool := false
  isPeripheral : Bool := false
  paired : Bool := false
  trusted : Bool := false
  servicesResolved : Bool := false
  bluetoothDetailsAvailable : Bool := false
  present : Bool := false

/-- What is sampled of an accelerator. -/
structure LsmNpuMetrics where
  utilizationPercent : Double := .finite 0
  memoryPercent : Double := .finite 0
  memoryUsedBytes : Nat := 0
  memoryTotalBytes : Nat := 0
  temperatureC : Double := .finite 0
  clockMhz : Double := .finite 0
  powerWatts : Double := .finite 0
  utilizationAvailable : Bool := false
  memoryUsedAvailable : Bool := false
  memoryTotalAvailable : Bool := false
  temperatureAvailable : Bool := false
  clockAvailable : Bool := false
  powerAvailable : Bool := false
  supportedMetrics : Bool := false
  metricsSource : Chars 96 := .empty

structure LsmNpuInfo extends LsmNpuMetrics where
  name : Chars 128 := .empty
  displayIdentifier : Chars 64 := .empty
  driver : Chars 64 := .empty
  platformIdentity : Chars 512 := .empty
  deviceIdentifier : Chars 512 := .empty

/-- The optional hardware of a monitor. -/
structure Lists where
  gpus : List LsmGpuInfo := []
  batteries : List LsmBatteryInfo := []
  npus : List LsmNpuInfo := []

/-! ### Identities -/

/-- The platform identity, or the display identifier without one. -/
def stableIdentity (platformIdentity : Chars 512) (displayIdentifier : Chars 64) : Text :=
  if platformIdentity.text ≠ [] then platformIdentity.text else displayIdentifier.text

def gpuIdentity (gpu : LsmGpuInfo) : Text := stableIdentity gpu.platformIdentity gpu.displayIdentifier

def npuIdentity (npu : LsmNpuInfo) : Text := stableIdentity npu.platformIdentity npu.displayIdentifier

/-- Platform identities where both have one, display identifiers where one has none. -/
def sameIdentity (leftPlatform : Chars 512) (leftDisplay : Chars 64) (rightPlatform : Chars 512)
    (rightDisplay : Chars 64) : Bool :=
  if leftPlatform.text ≠ [] ∧ rightPlatform.text ≠ [] then leftPlatform.text = rightPlatform.text
  else leftDisplay.text = rightDisplay.text

def sameGpuIdentity (left right : LsmGpuInfo) : Bool :=
  sameIdentity left.platformIdentity left.displayIdentifier right.platformIdentity right.displayIdentifier

def sameNpuIdentity (left right : LsmNpuInfo) : Bool :=
  sameIdentity left.platformIdentity left.displayIdentifier right.platformIdentity right.displayIdentifier

def sameBatteryName (left right : LsmBatteryInfo) : Bool := left.name.text = right.name.text

/-! ### Reconciliation -/

/-- A text that the discovery has, or the one before. -/
def discoveredText {n : Nat} (found before : Chars n) : Chars n := if found.text ≠ [] then found else before

def isFinite : Double → Bool
  | .finite _ => true
  | _ => false

/-- The adapter as it was, with the identity and the capabilities just discovered. -/
def mergeGpu (before found : LsmGpuInfo) : LsmGpuInfo :=
  { before with
    displayIdentifier := found.displayIdentifier
    platformIdentity := found.platformIdentity
    name := discoveredText found.name before.name
    driver := discoveredText found.driver before.driver
    driverVersion := found.driverVersion
    pciLocation := found.pciLocation
    engineMetricsCapable := found.engineMetricsCapable
    sharedSystemMemory := found.sharedSystemMemory
    integratedCooling := found.integratedCooling
    metricsSource := discoveredText found.metricsSource before.metricsSource }

def mergeBattery (before found : LsmBatteryInfo) : LsmBatteryInfo :=
  { before with
    name := found.name
    model := found.model
    manufacturer := found.manufacturer
    technology := found.technology
    scope := found.scope
    serial := found.serial
    connection := found.connection
    batterySource := found.batterySource
    deviceType := found.deviceType
    modalias := found.modalias
    supplementalCapacityPercent := found.supplementalCapacityPercent
    hasSupplementalCapacity := found.hasSupplementalCapacity
    isPeripheral := found.isPeripheral
    paired := found.paired
    trusted := found.trusted
    servicesResolved := found.servicesResolved
    bluetoothDetailsAvailable := found.bluetoothDetailsAvailable
    present := found.present
    capacityPercent := if isFinite found.capacityPercent then found.capacityPercent else before.capacityPercent
    status := discoveredText found.status before.status }

def mergeNpu (before found : LsmNpuInfo) : LsmNpuInfo :=
  { before with
    displayIdentifier := found.displayIdentifier
    platformIdentity := found.platformIdentity
    deviceIdentifier := found.deviceIdentifier
    name := discoveredText found.name before.name
    driver := discoveredText found.driver before.driver }

/-- The lists sorted by identity. -/
def sorted (lib : Library) (monitor : Lists) : Lists where
  gpus := lib.qsort gpuIdentity monitor.gpus
  batteries := lib.qsort (fun battery => battery.name.text) monitor.batteries
  npus := lib.qsort npuIdentity monitor.npus

def hardwareMembershipChanged (old monitor : Lists) : Bool :=
  Reconcile.changed sameGpuIdentity old.gpus monitor.gpus ||
    Reconcile.changed sameBatteryName old.batteries monitor.batteries ||
    Reconcile.changed sameNpuIdentity old.npus monitor.npus

def lsmHardwareTopologyReconcile (lib : Library) (monitor old : Lists) : Bool × Lists :=
  let found := sorted lib monitor
  (hardwareMembershipChanged old found,
    { gpus := found.gpus.map (Reconcile.retained sameGpuIdentity mergeGpu old.gpus)
      batteries := found.batteries.map (Reconcile.retained sameBatteryName mergeBattery old.batteries)
      npus := found.npus.map (Reconcile.retained sameNpuIdentity mergeNpu old.npus) })

/-! ### What is promised of the lists -/

/-- Each device is listed once. -/
structure Lists.Distinct (lists : Lists) : Prop where
  gpus : (lists.gpus.map gpuIdentity).Nodup
  batteries : (lists.batteries.map fun battery => battery.name.text).Nodup
  npus : (lists.npus.map npuIdentity).Nodup

/-- Every device has a platform identity, or none has. -/
def Uniform {α : Type} (platformIdentity : α → Chars 512) (devices : List α) : Prop :=
  (∀ device ∈ devices, (platformIdentity device).text ≠ []) ∨ ∀ device ∈ devices, (platformIdentity device).text = []

/-- The lists before, and the lists just discovered. -/
structure Discovery where
  old : Lists
  new : Lists
  old_distinct : old.Distinct
  new_distinct : new.Distinct
  gpus_uniform : Uniform LsmGpuInfo.platformIdentity (old.gpus ++ new.gpus)
  npus_uniform : Uniform LsmNpuInfo.platformIdentity (old.npus ++ new.npus)

/-- The same devices in any order. -/
structure Lists.Reordered (a b : Lists) : Prop where
  gpus : a.gpus.Perm b.gpus
  batteries : a.batteries.Perm b.batteries
  npus : a.npus.Perm b.npus

/-- An adapter that is found again: sampled as before, and for the rest as it is discovered. -/
structure GpuSurvives (before found gpu : LsmGpuInfo) : Prop where
  metrics : gpu.toLsmGpuMetrics = before.toLsmGpuMetrics
  identity : gpu.platformIdentity = found.platformIdentity ∧ gpu.displayIdentifier = found.displayIdentifier ∧
    gpu.pciLocation = found.pciLocation ∧ gpu.driverVersion = found.driverVersion
  capabilities : gpu.engineMetricsCapable = found.engineMetricsCapable ∧
    gpu.sharedSystemMemory = found.sharedSystemMemory ∧ gpu.integratedCooling = found.integratedCooling
  texts : gpu.name = discoveredText found.name before.name ∧ gpu.driver = discoveredText found.driver before.driver ∧
    gpu.metricsSource = discoveredText found.metricsSource before.metricsSource

structure BatterySurvives (before found battery : LsmBatteryInfo) : Prop where
  metrics : battery.toLsmBatteryMetrics = before.toLsmBatteryMetrics
  identity : battery.name = found.name ∧ battery.model = found.model ∧ battery.manufacturer = found.manufacturer ∧
    battery.technology = found.technology ∧ battery.scope = found.scope ∧ battery.serial = found.serial ∧
    battery.connection = found.connection ∧ battery.batterySource = found.batterySource ∧
    battery.deviceType = found.deviceType ∧ battery.modalias = found.modalias
  capabilities : battery.supplementalCapacityPercent = found.supplementalCapacityPercent ∧
    battery.hasSupplementalCapacity = found.hasSupplementalCapacity ∧ battery.isPeripheral = found.isPeripheral ∧
    battery.paired = found.paired ∧ battery.trusted = found.trusted ∧
    battery.servicesResolved = found.servicesResolved ∧
    battery.bluetoothDetailsAvailable = found.bluetoothDetailsAvailable ∧ battery.present = found.present
  level : battery.capacityPercent =
      (if isFinite found.capacityPercent then found.capacityPercent else before.capacityPercent) ∧
    battery.status = discoveredText found.status before.status

structure NpuSurvives (before found npu : LsmNpuInfo) : Prop where
  metrics : npu.toLsmNpuMetrics = before.toLsmNpuMetrics
  identity : npu.platformIdentity = found.platformIdentity ∧ npu.displayIdentifier = found.displayIdentifier ∧
    npu.deviceIdentifier = found.deviceIdentifier
  texts : npu.name = discoveredText found.name before.name ∧ npu.driver = discoveredText found.driver before.driver

/-- What is published of one kind of device. -/
structure Published {α : Type} (identity : α → Text) (Survives : α → α → α → Prop) (old new result : List α) : Prop where
  sorted : result.Pairwise fun a b => strcmpKey (identity a) ≤ strcmpKey (identity b)
  identities : (result.map identity).Perm (new.map identity)
  records : ∀ record ∈ result, ∃ found ∈ new, identity record = identity found ∧
    ((∃ before ∈ old, identity before = identity found ∧ Survives before found record) ∨
      identity found ∉ old.map identity ∧ record = found)

/-- The identities are other ones. -/
def IdentitiesDiffer {α : Type} (identity : α → Text) (old new : List α) : Prop :=
  ¬∀ key, key ∈ old.map identity ↔ key ∈ new.map identity

/-! ### One kind of device -/

section
variable {α : Type} {identity : α → Text} {same : α → α → Bool} {merge : α → α → α} {old new : List α} (lib : Library)

theorem agrees_qsort (h : Reconcile.Agrees identity same old new) :
    Reconcile.Agrees identity same old (lib.qsort identity new) := fun before hbefore found hfound =>
  h before hbefore found ((lib.qsort_perm identity new).mem_iff.mp hfound)

theorem published_retained {Survives : α → α → α → Prop} (hold : (old.map identity).Nodup)
    (hagrees : Reconcile.Agrees identity same old new) (hmerge : ∀ before found, identity (merge before found) = identity found)
    (hsurvives : ∀ before found, Survives before found (merge before found)) :
    Published identity Survives old new ((lib.qsort identity new).map (Reconcile.retained same merge old)) where
  sorted := by
    rw [List.pairwise_map]
    refine (lib.qsort_sorted identity new).imp fun {a b} hab => ?_
    rw [Reconcile.identity_retained hmerge, Reconcile.identity_retained hmerge]
    exact hab
  identities := by
    rw [Reconcile.map_identity_retained hmerge]
    exact (lib.qsort_perm identity new).map identity
  records := by
    intro record hrecord
    obtain ⟨found, hfound, rfl⟩ := List.mem_map.mp hrecord
    have hnew := (lib.qsort_perm identity new).mem_iff.mp hfound
    refine ⟨found, hnew, Reconcile.identity_retained hmerge old found, ?_⟩
    rcases @Reconcile.retained_cases _ _ identity same merge old new hold hagrees found hnew with
      ⟨before, hbefore, hsame, hmerged⟩ | hfresh
    · refine .inl ⟨before, hbefore, hsame, ?_⟩
      rw [hmerged]
      exact hsurvives before found
    · exact .inr hfresh

theorem changed_qsort (hold : (old.map identity).Nodup) (hnew : (new.map identity).Nodup)
    (hagrees : Reconcile.Agrees identity same old new) :
    Reconcile.changed same old (lib.qsort identity new) = true ↔ IdentitiesDiffer identity old new := by
  have hperm := (lib.qsort_perm identity new).map identity
  rw [Reconcile.changed_iff hold (hperm.nodup_iff.mpr hnew) (agrees_qsort lib hagrees), IdentitiesDiffer]
  exact not_congr (forall_congr' fun key => by rw [hperm.mem_iff])

/-- One kind of device in another order. -/
theorem retained_qsort_perm {old' new' : List α} (hold : (old.map identity).Nodup) (hnew : (new.map identity).Nodup)
    (hagrees : Reconcile.Agrees identity same old new) (holdPerm : old'.Perm old) (hnewPerm : new'.Perm new) :
    (lib.qsort identity new').map (Reconcile.retained same merge old') =
      (lib.qsort identity new).map (Reconcile.retained same merge old) :=
  Reconcile.reconcile_perm (fun _ _ h => strcmpKey_injective h) (lib.qsort_perm identity) (lib.qsort_sorted identity)
    hold hnew hagrees holdPerm hnewPerm

theorem IdentitiesDiffer.perm {old' new' : List α} (holdPerm : old'.Perm old) (hnewPerm : new'.Perm new) :
    IdentitiesDiffer identity old' new' ↔ IdentitiesDiffer identity old new := by
  rw [IdentitiesDiffer, IdentitiesDiffer]
  refine not_congr (forall_congr' fun key => ?_)
  rw [(holdPerm.map identity).mem_iff, (hnewPerm.map identity).mem_iff]

/-- Where all have a platform identity or none has, the comparison is that of the identities. -/
theorem agrees_of_uniform {platformIdentity : α → Chars 512} {displayIdentifier : α → Chars 64}
    (h : Uniform platformIdentity (old ++ new)) :
    Reconcile.Agrees (fun device => stableIdentity (platformIdentity device) (displayIdentifier device))
      (fun left right => sameIdentity (platformIdentity left) (displayIdentifier left) (platformIdentity right)
        (displayIdentifier right)) old new := by
  intro before hbefore found hfound
  have hbefore := List.mem_append_left new hbefore
  have hfound := List.mem_append_right old hfound
  rcases h with hall | hnone
  · simp [sameIdentity, stableIdentity, hall _ hbefore, hall _ hfound]
  · simp [sameIdentity, stableIdentity, hnone _ hbefore, hnone _ hfound]

end

/-! ### All three -/

namespace Discovery
variable (d : Discovery)

theorem gpus_agree : Reconcile.Agrees gpuIdentity sameGpuIdentity d.old.gpus d.new.gpus :=
  agrees_of_uniform d.gpus_uniform

theorem npus_agree : Reconcile.Agrees npuIdentity sameNpuIdentity d.old.npus d.new.npus :=
  agrees_of_uniform d.npus_uniform

theorem batteries_agree : Reconcile.Agrees (fun battery : LsmBatteryInfo => battery.name.text) sameBatteryName d.old.batteries
    d.new.batteries := fun _ _ _ _ => decide_eq_true_iff

end Discovery

theorem gpuSurvives_mergeGpu (before found : LsmGpuInfo) : GpuSurvives before found (mergeGpu before found) where
  metrics := rfl
  identity := ⟨rfl, rfl, rfl, rfl⟩
  capabilities := ⟨rfl, rfl, rfl⟩
  texts := ⟨rfl, rfl, rfl⟩

theorem batterySurvives_mergeBattery (before found : LsmBatteryInfo) :
    BatterySurvives before found (mergeBattery before found) where
  metrics := rfl
  identity := ⟨rfl, rfl, rfl, rfl, rfl, rfl, rfl, rfl, rfl, rfl⟩
  capabilities := ⟨rfl, rfl, rfl, rfl, rfl, rfl, rfl, rfl⟩
  level := ⟨rfl, rfl⟩

theorem npuSurvives_mergeNpu (before found : LsmNpuInfo) : NpuSurvives before found (mergeNpu before found) where
  metrics := rfl
  identity := ⟨rfl, rfl, rfl⟩
  texts := ⟨rfl, rfl⟩

theorem membershipChanged_iff (lib : Library) (d : Discovery) :
    (lsmHardwareTopologyReconcile lib d.new d.old).1 = true ↔
      IdentitiesDiffer gpuIdentity d.old.gpus d.new.gpus ∨
        IdentitiesDiffer (fun battery : LsmBatteryInfo => battery.name.text) d.old.batteries d.new.batteries ∨
        IdentitiesDiffer npuIdentity d.old.npus d.new.npus := by
  show hardwareMembershipChanged d.old (sorted lib d.new) = true ↔ _
  rw [hardwareMembershipChanged, Bool.or_eq_true, Bool.or_eq_true, or_assoc]
  refine or_congr ?_ (or_congr ?_ ?_)
  · exact changed_qsort lib d.old_distinct.gpus d.new_distinct.gpus d.gpus_agree
  · exact changed_qsort lib d.old_distinct.batteries d.new_distinct.batteries d.batteries_agree
  · exact changed_qsort lib d.old_distinct.npus d.new_distinct.npus d.npus_agree

/-- The order of enumeration, before and now, does not matter. -/
theorem reconcile_reordered (lib : Library) (d other : Discovery) (hold : other.old.Reordered d.old)
    (hnew : other.new.Reordered d.new) :
    lsmHardwareTopologyReconcile lib other.new other.old = lsmHardwareTopologyReconcile lib d.new d.old := by
  have hchanged : (lsmHardwareTopologyReconcile lib other.new other.old).1 = (lsmHardwareTopologyReconcile lib d.new d.old).1 := by
    rw [Bool.eq_iff_iff, membershipChanged_iff, membershipChanged_iff, IdentitiesDiffer.perm hold.gpus hnew.gpus,
      IdentitiesDiffer.perm hold.batteries hnew.batteries, IdentitiesDiffer.perm hold.npus hnew.npus]
  refine Prod.ext hchanged ?_
  show Lists.mk _ _ _ = Lists.mk _ _ _
  congr 1
  · exact retained_qsort_perm lib d.old_distinct.gpus d.new_distinct.gpus d.gpus_agree hold.gpus hnew.gpus
  · exact retained_qsort_perm lib d.old_distinct.batteries d.new_distinct.batteries d.batteries_agree hold.batteries
      hnew.batteries
  · exact retained_qsort_perm lib d.old_distinct.npus d.new_distinct.npus d.npus_agree hold.npus hnew.npus

/-- **Reconciliation follows identity.** Each list is sorted and has the identities that were
discovered, a record found again is patched with the discovery and a new one is as discovered.
A change is reported exactly when some list has other identities, and no order matters. -/
theorem hardware_topology_reconcile_spec (lib : Library) (d : Discovery) :
    let result := lsmHardwareTopologyReconcile lib d.new d.old
    Published gpuIdentity GpuSurvives d.old.gpus d.new.gpus result.2.gpus ∧
      Published (fun battery : LsmBatteryInfo => battery.name.text) BatterySurvives d.old.batteries d.new.batteries
        result.2.batteries ∧
      Published npuIdentity NpuSurvives d.old.npus d.new.npus result.2.npus ∧
      (result.1 = true ↔ IdentitiesDiffer gpuIdentity d.old.gpus d.new.gpus ∨
        IdentitiesDiffer (fun battery : LsmBatteryInfo => battery.name.text) d.old.batteries d.new.batteries ∨
        IdentitiesDiffer npuIdentity d.old.npus d.new.npus) ∧
      ∀ other : Discovery, other.old.Reordered d.old → other.new.Reordered d.new →
        lsmHardwareTopologyReconcile lib other.new other.old = result := by
  refine ⟨?_, ?_, ?_, membershipChanged_iff lib d, fun other => reconcile_reordered lib d other⟩
  · exact published_retained lib d.old_distinct.gpus d.gpus_agree (fun _ _ => rfl) gpuSurvives_mergeGpu
  · exact published_retained lib d.old_distinct.batteries d.batteries_agree (fun _ _ => rfl) batterySurvives_mergeBattery
  · exact published_retained lib d.old_distinct.npus d.npus_agree (fun _ _ => rfl) npuSurvives_mergeNpu

end SystemMonitor.Hardware.Topology
