import Mathlib.Data.List.Induction
import SystemMonitor.Pages.Rows

/-! One Overview sample, derived from a completed monitor snapshot.

A finite `double` is the rational it stands for. Disks are averaged over the system;
the busiest interface and the busiest GPU are kept with the texts that are to find
them again. -/
namespace SystemMonitor.Overview
open Pages (Double)

def sizeMax : Nat := 2 ^ 64 - 1

/-! ### The snapshot -/

structure LsmCpuInfo where
  model : Chars 128 := .empty
  usageAvailable : Bool := false
  usagePercent : Double := .finite 0
  userPercent : Double := .finite 0
  kernelPercent : Double := .finite 0
  temperatureAvailable : Bool := false
  temperatureC : Double := .finite 0
  deriving DecidableEq

structure LsmMemoryInfo where
  totalBytes : Nat := 0
  availableBytes : Nat := 0
  usagePercent : Double := .finite 0
  deriving DecidableEq

structure LsmPressureInfo where
  available : Bool := false
  someAvg10 : Double := .finite 0
  deriving DecidableEq

structure LsmDiskInfo where
  activePercent : Double := .finite 0
  readBytesPerSec : Double := .finite 0
  writeBytesPerSec : Double := .finite 0
  deriving DecidableEq

structure LsmNetInfo where
  name : Chars 64 := .empty
  instanceIdentity : Chars 512 := .empty
  mac : Chars 32 := .empty
  product : Chars 128 := .empty
  rxBytesPerSec : Double := .finite 0
  txBytesPerSec : Double := .finite 0
  deriving DecidableEq

structure LsmGpuInfo where
  name : Chars 128 := .empty
  displayIdentifier : Chars 64 := .empty
  platformIdentity : Chars 512 := .empty
  utilizationAvailable : Bool := false
  utilizationPercent : Double := .finite 0
  temperatureAvailable : Bool := false
  temperatureC : Double := .finite 0
  deriving DecidableEq

structure LsmMonitor where
  cpu : LsmCpuInfo := {}
  memory : LsmMemoryInfo := {}
  cpuPressure : LsmPressureInfo := {}
  memoryPressure : LsmPressureInfo := {}
  ioPressure : LsmPressureInfo := {}
  disks : List LsmDiskInfo := []
  nets : List LsmNetInfo := []
  gpus : List LsmGpuInfo := []
  sampleGeneration : Nat
  sampleMonotonicSeconds : Double
  deriving DecidableEq

/-! ### The sample -/

inductive LsmOverviewTemperatureSource where
  | none
  | cpu
  | gpu
  deriving DecidableEq

/-- As `memset` leaves it. -/
structure LsmOverviewSample where
  gap : Bool := false
  generation : Nat := 0
  monotonicSeconds : ℚ := 0
  cpuAvailable : Bool := false
  cpuPercent : ℚ := 0
  cpuBreakdownAvailable : Bool := false
  cpuUserPercent : ℚ := 0
  cpuKernelPercent : ℚ := 0
  memoryAvailable : Bool := false
  memoryPercent : ℚ := 0
  memoryBreakdownAvailable : Bool := false
  memoryAvailablePercent : ℚ := 0
  diskAvailable : Bool := false
  diskPercent : ℚ := 0
  diskReadBytesPerSec : ℚ := 0
  diskWriteBytesPerSec : ℚ := 0
  diskIndex : Nat := 0
  diskIdentity : Chars 512 := .empty
  diskName : Chars 128 := .empty
  networkAvailable : Bool := false
  networkBytesPerSec : ℚ := 0
  networkReceiveBytesPerSec : ℚ := 0
  networkSendBytesPerSec : ℚ := 0
  networkIndex : Nat := 0
  networkIdentity : Chars 512 := .empty
  networkName : Chars 128 := .empty
  gpuAvailable : Bool := false
  gpuPercent : ℚ := 0
  gpuIndex : Nat := 0
  gpuIdentity : Chars 512 := .empty
  gpuName : Chars 128 := .empty
  temperatureAvailable : Bool := false
  temperatureC : ℚ := 0
  temperatureSource : LsmOverviewTemperatureSource := .none
  temperatureGpuIndex : Nat := 0
  temperatureIdentity : Chars 512 := .empty
  temperatureName : Chars 128 := .empty
  cpuPressureAvailable : Bool := false
  cpuPressurePercent : ℚ := 0
  memoryPressureAvailable : Bool := false
  memoryPressurePercent : ℚ := 0
  ioPressureAvailable : Bool := false
  ioPressurePercent : ℚ := 0
  deriving DecidableEq

/-- The value of a finite number. -/
def finite : Double → Option ℚ
  | .finite value => some value
  | _ => none

def nonnegative (value : Double) : Option ℚ := (finite value).filter (0 ≤ ·)

def boundedPercent (value : ℚ) : ℚ := if value < 0 then 0 else if 100 < value then 100 else value

/-- The first text that is not empty. -/
def preferred (primary fallback : Text) : Text := if primary ≠ [] then primary else fallback

def copyIdentity {n : Nat} (primary fallback : Text) : Chars n := Chars.ofText (preferred primary fallback)

def deriveDisk (monitor : LsmMonitor) (sample : LsmOverviewSample) : LsmOverviewSample :=
  let active := monitor.disks.filterMap fun disk => nonnegative disk.activePercent
  if active = [] then sample
  else
    { sample with
      diskAvailable := true
      diskPercent := boundedPercent ((active.map boundedPercent).sum / active.length)
      diskReadBytesPerSec := (monitor.disks.filterMap fun disk => nonnegative disk.readBytesPerSec).sum
      diskWriteBytesPerSec := (monitor.disks.filterMap fun disk => nonnegative disk.writeBytesPerSec).sum
      diskIndex := sizeMax
      diskIdentity := .empty
      diskName := .empty }

/-- One turn of a loop that looks for the highest value; of equal ones the first stays. -/
def higher {α : Type} (measure : α → Option ℚ) (best : Option (Nat × ℚ)) (index : Nat) (a : α) : Option (Nat × ℚ) :=
  match measure a with
  | none => best
  | some value =>
    match best with
    | none => some (index, value)
    | some (_, highest) => if highest < value then some (index, value) else best

/-- The index of the highest value, and the value. -/
def busiest {α : Type} (measure : α → Option ℚ) (devices : List α) : Option (Nat × ℚ) :=
  devices.zipIdx.foldl (fun best (a, index) => higher measure best index a) none

def networkRate (net : LsmNetInfo) : Option ℚ := do
  let received ← nonnegative net.rxBytesPerSec
  let sent ← nonnegative net.txBytesPerSec
  some (received + sent)

def deriveNetwork (monitor : LsmMonitor) (sample : LsmOverviewSample) : LsmOverviewSample :=
  match busiest networkRate monitor.nets with
  | none => sample
  | some (index, rate) =>
    let net := monitor.nets.getD index {}
    { sample with
      networkAvailable := true
      networkReceiveBytesPerSec := (finite net.rxBytesPerSec).getD 0
      networkSendBytesPerSec := (finite net.txBytesPerSec).getD 0
      networkBytesPerSec := rate
      networkIndex := index
      networkIdentity := copyIdentity net.mac.text net.name.text
      networkName := Chars.ofText (preferred net.product.text net.name.text) }

def gpuUsage (gpu : LsmGpuInfo) : Option ℚ :=
  if gpu.utilizationAvailable then (finite gpu.utilizationPercent).map boundedPercent else none

def deriveGpu (monitor : LsmMonitor) (sample : LsmOverviewSample) : LsmOverviewSample :=
  match busiest gpuUsage monitor.gpus with
  | none => sample
  | some (index, usage) =>
    let gpu := monitor.gpus.getD index {}
    { sample with
      gpuAvailable := true
      gpuPercent := usage
      gpuIndex := index
      gpuIdentity := copyIdentity gpu.platformIdentity.text gpu.displayIdentifier.text
      gpuName := Chars.ofText (preferred gpu.name.text gpu.displayIdentifier.text) }

/-- A GPU that is hotter than what was found so far. -/
def hotterGpu (sample : LsmOverviewSample) (gpu : LsmGpuInfo) (index : Nat) : LsmOverviewSample :=
  match if gpu.temperatureAvailable then finite gpu.temperatureC else none with
  | none => sample
  | some temperature =>
    if sample.temperatureAvailable = false ∨ sample.temperatureC < temperature then
      { sample with
        temperatureAvailable := true
        temperatureC := temperature
        temperatureSource := .gpu
        temperatureGpuIndex := index
        temperatureIdentity := copyIdentity gpu.platformIdentity.text gpu.displayIdentifier.text
        temperatureName := Chars.ofText (preferred gpu.name.text gpu.displayIdentifier.text) }
    else sample

def deriveTemperature (monitor : LsmMonitor) (sample : LsmOverviewSample) : LsmOverviewSample :=
  let sample :=
    match if monitor.cpu.temperatureAvailable then finite monitor.cpu.temperatureC else none with
    | none => sample
    | some temperature =>
      { sample with
        temperatureAvailable := true
        temperatureC := temperature
        temperatureSource := .cpu
        temperatureName := Chars.ofText (preferred monitor.cpu.model.text (ascii "CPU")) }
  monitor.gpus.zipIdx.foldl (fun sample (gpu, index) => hotterGpu sample gpu index) sample

/-- A share that is there and is a number. -/
def share (available : Bool) (value : Double) : Option ℚ :=
  if available then (finite value).map boundedPercent else none

def deriveCpu (monitor : LsmMonitor) (sample : LsmOverviewSample) : LsmOverviewSample :=
  let user := share monitor.cpu.usageAvailable monitor.cpu.userPercent
  let kernel := share monitor.cpu.usageAvailable monitor.cpu.kernelPercent
  let usage := share monitor.cpu.usageAvailable monitor.cpu.usagePercent
  let breakdown := user.isSome && kernel.isSome
  { sample with
    cpuAvailable := usage.isSome
    cpuPercent := usage.getD 0
    cpuBreakdownAvailable := breakdown
    cpuUserPercent := if breakdown then user.getD 0 else 0
    cpuKernelPercent := if breakdown then kernel.getD 0 else 0 }

def deriveMemory (monitor : LsmMonitor) (sample : LsmOverviewSample) : LsmOverviewSample :=
  match share (0 < monitor.memory.totalBytes) monitor.memory.usagePercent with
  | none => sample
  | some percent =>
    let breakdown := decide (monitor.memory.availableBytes ≤ monitor.memory.totalBytes)
    { sample with
      memoryAvailable := true
      memoryPercent := percent
      memoryBreakdownAvailable := breakdown
      memoryAvailablePercent :=
        if breakdown then
          boundedPercent (100 * (monitor.memory.availableBytes : ℚ) / (monitor.memory.totalBytes : ℚ))
        else 0 }

def derivePressure (monitor : LsmMonitor) (sample : LsmOverviewSample) : LsmOverviewSample :=
  let cpu := share monitor.cpuPressure.available monitor.cpuPressure.someAvg10
  let memory := share monitor.memoryPressure.available monitor.memoryPressure.someAvg10
  let io := share monitor.ioPressure.available monitor.ioPressure.someAvg10
  { sample with
    cpuPressureAvailable := cpu.isSome
    cpuPressurePercent := cpu.getD 0
    memoryPressureAvailable := memory.isSome
    memoryPressurePercent := memory.getD 0
    ioPressureAvailable := io.isSome
    ioPressurePercent := io.getD 0 }

/-- `derive_sample`, of a snapshot completed at that time. -/
def deriveSample (monitor : LsmMonitor) (seconds : ℚ) : LsmOverviewSample :=
  let sample := { generation := monitor.sampleGeneration, monotonicSeconds := seconds }
  derivePressure monitor (deriveTemperature monitor (deriveGpu monitor (deriveNetwork monitor (deriveDisk monitor
    (deriveMemory monitor (deriveCpu monitor sample))))))

/-! ### What the temperature leaves alone -/

section Frame
variable {β : Type} (monitor : LsmMonitor) (sample : LsmOverviewSample) (f : LsmOverviewSample → β)
  (hframe : ∀ sample available temperature source index identity name,
    f { sample with
        temperatureAvailable := available
        temperatureC := temperature
        temperatureSource := source
        temperatureGpuIndex := index
        temperatureIdentity := identity
        temperatureName := name } = f sample)
include hframe

theorem hotterGpu_frame (gpu : LsmGpuInfo) (index : Nat) : f (hotterGpu sample gpu index) = f sample := by
  rw [hotterGpu]
  split
  next => rfl
  next =>
    split
    next => exact hframe sample _ _ _ _ _ _
    next => rfl

theorem foldl_hotterGpu_frame (gpus : List (LsmGpuInfo × Nat)) :
    f (gpus.foldl (fun sample (gpu, index) => hotterGpu sample gpu index) sample) = f sample := by
  induction gpus generalizing sample with
  | nil => rfl
  | cons head gpus ih => rw [List.foldl_cons, ih, hotterGpu_frame _ f hframe]

/-- Whatever does not look at the temperature is what it was. -/
theorem deriveTemperature_frame : f (deriveTemperature monitor sample) = f sample := by
  simp only [deriveTemperature, foldl_hotterGpu_frame _ f hframe]
  split
  next => rfl
  next => exact hframe sample _ _ _ _ _ _

end Frame

/-! ### The busiest device -/

/-- Of the devices that have a value, the first one with the highest. -/
def Highest {α : Type} (measure : α → Option ℚ) (devices : List α) : Option (Nat × ℚ) → Prop
  | none => ∀ device ∈ devices, measure device = none
  | some (index, value) =>
    (∃ device, devices[index]? = some device ∧ measure device = some value) ∧
      ∀ other device value', devices[other]? = some device → measure device = some value' →
        value' ≤ value ∧ (other < index → value' < value)

/-- The device at the index is the busiest one. -/
def IsBusiest {α : Type} (measure : α → Option ℚ) (devices : List α) (index : Nat) : Prop :=
  ∃ value, Highest measure devices (some (index, value))

section Busiest
variable {α : Type} {measure : α → Option ℚ} {devices : List α}

theorem getElem?_concat_cases {a device : α} {index : Nat} (h : (devices ++ [a])[index]? = some device) :
    devices[index]? = some device ∨ index = devices.length ∧ device = a := by
  rw [List.getElem?_append] at h
  split at h
  next => exact .inl h
  next hle =>
    obtain ⟨hzero, ha⟩ := List.getElem?_eq_some_iff.mp h
    rw [List.length_singleton] at hzero
    rw [List.getElem_singleton] at ha
    exact .inr ⟨by omega, ha.symm⟩

theorem getElem?_concat_left {device : α} {index : Nat} (h : devices[index]? = some device) (a : α) :
    (devices ++ [a])[index]? = some device :=
  (List.getElem?_append_left (List.getElem?_eq_some_iff.mp h).1).trans h

/-- One turn of the loop. -/
theorem Highest.concat {best : Option (Nat × ℚ)} (h : Highest measure devices best) (a : α) :
    Highest measure (devices ++ [a]) (higher measure best devices.length a) := by
  rw [higher]
  cases ha : measure a with
  | none =>
    cases best with
    | none =>
      intro device hdevice
      rcases List.mem_append.mp hdevice with hmem | hmem
      · exact h device hmem
      · rw [List.mem_singleton.mp hmem, ha]
    | some best =>
      obtain ⟨⟨device, hdevice, hvalue⟩, hall⟩ := h
      refine ⟨⟨device, getElem?_concat_left hdevice a, hvalue⟩, ?_⟩
      intro other device' value' hother hvalue'
      rcases getElem?_concat_cases hother with hbefore | ⟨-, rfl⟩
      · exact hall other device' value' hbefore hvalue'
      · rw [ha] at hvalue'
        exact nomatch hvalue'
  | some value =>
    have hlast : (devices ++ [a])[devices.length]? = some a := List.getElem?_concat_length
    cases best with
    | none =>
      refine ⟨⟨a, hlast, ha⟩, ?_⟩
      intro other device' value' hother hvalue'
      rcases getElem?_concat_cases hother with hbefore | ⟨rfl, rfl⟩
      · have hnone := h device' (List.mem_of_getElem? hbefore)
        exact nomatch hnone.symm.trans hvalue'
      · obtain rfl := Option.some.inj (ha.symm.trans hvalue')
        exact ⟨le_rfl, fun hlt => absurd hlt (lt_irrefl _)⟩
    | some best =>
      obtain ⟨⟨device, hdevice, hvalue⟩, hall⟩ := h
      have hindex := (List.getElem?_eq_some_iff.mp hdevice).1
      dsimp only
      split
      next hlt =>
        refine ⟨⟨a, hlast, ha⟩, ?_⟩
        intro other device' value' hother hvalue'
        rcases getElem?_concat_cases hother with hbefore | ⟨rfl, rfl⟩
        · have hle := (hall other device' value' hbefore hvalue').1
          exact ⟨hle.trans hlt.le, fun _ => hle.trans_lt hlt⟩
        · obtain rfl := Option.some.inj (ha.symm.trans hvalue')
          exact ⟨le_rfl, fun hlt => absurd hlt (lt_irrefl _)⟩
      next hnot =>
        refine ⟨⟨device, getElem?_concat_left hdevice a, hvalue⟩, ?_⟩
        intro other device' value' hother hvalue'
        rcases getElem?_concat_cases hother with hbefore | ⟨rfl, rfl⟩
        · exact hall other device' value' hbefore hvalue'
        · obtain rfl := Option.some.inj (ha.symm.trans hvalue')
          exact ⟨not_lt.mp hnot, fun hbefore => absurd hindex (not_lt.mpr hbefore.le)⟩

theorem busiest_concat (a : α) :
    busiest measure (devices ++ [a]) = higher measure (busiest measure devices) devices.length a := by
  simp only [busiest, List.zipIdx_append, List.foldl_append, List.zipIdx_singleton, List.foldl_cons, List.foldl_nil,
    Nat.zero_add]

theorem busiest_highest : Highest measure devices (busiest measure devices) := by
  induction devices using List.reverseRecOn with
  | nil => exact fun _ h => nomatch h
  | append_singleton devices a ih =>
    rw [busiest_concat]
    exact ih.concat a

/-- **The loop ends with the busiest device**, which there is when one has a value at all. -/
theorem busiest_index_iff {index : Nat} :
    (busiest measure devices).map (·.1) = some index ↔ IsBusiest measure devices index := by
  have hfound : Highest measure devices (busiest measure devices) := busiest_highest
  constructor
  · intro h
    obtain ⟨⟨index', value⟩, hbest, rfl⟩ := Option.map_eq_some_iff.mp h
    rw [hbest] at hfound
    exact ⟨value, hfound⟩
  · intro hbusiest
    obtain ⟨value, ⟨device, hdevice, hvalue⟩, hall⟩ := hbusiest
    cases hbest : busiest measure devices with
    | none =>
      rw [hbest] at hfound
      have hnone := hfound device (List.mem_of_getElem? hdevice)
      exact nomatch hnone.symm.trans hvalue
    | some best =>
      rw [hbest] at hfound
      obtain ⟨⟨device', hdevice', hvalue'⟩, hall'⟩ := hfound
      -- each is at least as high as the other, so neither comes first
      have hle := hall best.1 device' best.2 hdevice' hvalue'
      have hge := hall' index device value hdevice hvalue
      have hfirst : ¬best.1 < index := fun hlt => absurd (hle.2 hlt) (not_lt.mpr hge.1)
      have hlast : ¬index < best.1 := fun hlt => absurd (hge.2 hlt) (not_lt.mpr hle.1)
      exact congrArg some (Nat.le_antisymm (not_lt.mp hlast) (not_lt.mp hfirst))

end Busiest

end SystemMonitor.Overview
