import SystemMonitor.Hardware.Pairing

/-! When `topology_generation` stands still.

While the same devices are enumerated, a refresh publishes the same sorted list and
finds no change against a list it published itself (`Published.unmoved`). NVML may
then append to that list, counting the generation up (`nvmlRefresh_spec`); the next
refresh drops what was appended and counts it up again. So the generation stands
still over a run exactly when NVML finds an adapter for each of its devices
(`topology_generation_unmoved_iff`). -/
namespace SystemMonitor.Hardware
open Lib
open Storage (strcmpKey)

/-! ### NVML -/

/-- The turns of the devices of one report. -/
def nvmlTurns (lib : Library) (driverVersion : Text) : Machine LsmMonitor (NvmlDevice × Nat) where
  step monitor p := some (nvmlDevice lib driverVersion monitor p.1 p.2)

/-- Every device of the report has an adapter when its turn comes. -/
def AllPlaced (lib : Library) (report : Option NvmlReport) (monitor : LsmMonitor) : Prop :=
  ∀ r ∈ report, (nvmlTurns lib r.driverVersion).Admissible (Placed lib) monitor r.devices.zipIdx

/-- NVML left the list as it was, or grew it and counted the generation up as much. -/
structure Grown (placed : Prop) (monitor t : LsmMonitor) : Prop where
  balance : t.topologyGeneration + monitor.gpus.length = monitor.topologyGeneration + t.gpus.length
  le : monitor.topologyGeneration ≤ t.topologyGeneration
  same : placed → t.gpus.map identifiers = monitor.gpus.map identifiers
  unmoved : placed ↔ t.topologyGeneration = monitor.topologyGeneration
  others : t.batteries = monitor.batteries ∧ t.npus = monitor.npus ∧ t.bluetoothDevices = monitor.bluetoothDevices

theorem Listing.grown {lib : Library} {monitor t : LsmMonitor} {p : NvmlDevice × Nat} (h : Listing lib monitor p t) :
    Grown (Placed lib monitor p) monitor t := by
  cases h with
  | kept gpus hplaced hsame =>
    have hlength : gpus.length = monitor.gpus.length := by simpa using congrArg List.length hsame
    refine ⟨?_, Nat.le_refl _, fun _ => hsame, iff_of_true hplaced rfl, rfl, rfl, rfl⟩
    show monitor.topologyGeneration + monitor.gpus.length = monitor.topologyGeneration + gpus.length
    rw [hlength]
  | appended gpus card hunplaced hcard hnew hsame =>
    have hlength : gpus.length = monitor.gpus.length + 1 := by simpa using congrArg List.length hsame
    refine ⟨?_, Nat.le_succ _, fun h => absurd h hunplaced, iff_of_false hunplaced (Nat.succ_ne_self _), rfl, rfl, rfl⟩
    show monitor.topologyGeneration + 1 + monitor.gpus.length = monitor.topologyGeneration + gpus.length
    omega

theorem Grown.trans {p q : Prop} {a b c : LsmMonitor} (hab : Grown p a b) (hbc : Grown q b c) :
    Grown (p ∧ q) a c where
  balance := by
    have h₁ := hab.balance
    have h₂ := hbc.balance
    omega
  le := hab.le.trans hbc.le
  same h := (hbc.same h.2).trans (hab.same h.1)
  unmoved := by
    rw [hab.unmoved, hbc.unmoved]
    have h₁ := hab.le
    have h₂ := hbc.le
    omega
  others := by
    obtain ⟨h₁, h₂, h₃⟩ := hab.others
    obtain ⟨h₄, h₅, h₆⟩ := hbc.others
    exact ⟨h₄.trans h₁, h₅.trans h₂, h₆.trans h₃⟩

theorem nvmlTurns_grown (lib : Library) (driverVersion : Text) (monitor : LsmMonitor)
    (devices : List (NvmlDevice × Nat)) :
    Grown ((nvmlTurns lib driverVersion).Admissible (Placed lib) monitor devices) monitor
      (devices.foldl (fun monitor p => nvmlDevice lib driverVersion monitor p.1 p.2) monitor) := by
  induction devices generalizing monitor with
  | nil => exact ⟨rfl, Nat.le_refl _, fun _ => rfl, iff_of_true trivial rfl, rfl, rfl, rfl⟩
  | cons p rest ih =>
    have hturn := (nvmlDevice_cases lib driverVersion monitor p).grown.trans (ih _)
    have hadmissible : (nvmlTurns lib driverVersion).Admissible (Placed lib) monitor (p :: rest) ↔
        Placed lib monitor p ∧ (nvmlTurns lib driverVersion).Admissible (Placed lib)
          (nvmlDevice lib driverVersion monitor p.1 p.2) rest := by
      refine and_congr Iff.rfl ⟨fun h => h _ rfl, fun h t ht => ?_⟩
      cases ht
      exact h
    rw [hadmissible]
    exact hturn

theorem nvmlRefresh_spec (lib : Library) (report : Option NvmlReport) (monitor : LsmMonitor) :
    Grown (AllPlaced lib report monitor) monitor (lsmNvmlRefresh lib report monitor) := by
  cases report with
  | none =>
    have hplaced : AllPlaced lib none monitor := fun r hr => absurd hr (Option.not_mem_none r)
    exact ⟨rfl, Nat.le_refl _, fun _ => rfl, iff_of_true hplaced rfl, rfl, rfl, rfl⟩
  | some report =>
    have hplaced : AllPlaced lib (some report) monitor ↔
        (nvmlTurns lib report.driverVersion).Admissible (Placed lib) monitor report.devices.zipIdx := by
      refine ⟨fun h => h report rfl, fun h r hr => ?_⟩
      cases hr
      exact h
    rw [hplaced]
    exact nvmlTurns_grown lib report.driverVersion monitor report.devices.zipIdx

/-- Bus ids that the list has are enough: names, drivers and order do not matter. -/
theorem allPlaced_of_busIds (lib : Library) (report : NvmlReport) {monitor : LsmMonitor}
    (h : ∀ device ∈ report.devices, ∃ id, nvmlBusId lib device = some id ∧
      ∃ gpu ∈ monitor.gpus, gpuPciBusId lib gpu = some id) : AllPlaced lib (some report) monitor := by
  intro r hr
  cases hr
  have hdevices : ∀ p ∈ report.devices.zipIdx, p.1 ∈ report.devices := by
    intro p hp
    exact (List.mem_zipIdx' hp).2 ▸ List.getElem_mem _
  generalize report.devices.zipIdx = devices at hdevices
  induction devices generalizing monitor with
  | nil => trivial
  | cons p rest ih =>
    obtain ⟨id, hid, gpu, hgpu, hmatch⟩ := h p.1 (hdevices p (List.mem_cons_self ..))
    have hplaced : Placed lib monitor p := by
      intro _
      left
      rw [matchedGpu, hid]
      exact List.findIdx?_isSome.trans (List.any_eq_true.mpr ⟨gpu, hgpu, decide_eq_true hmatch⟩)
    refine ⟨hplaced, fun t ht => ?_⟩
    cases ht
    refine ih ?_ fun q hq => hdevices q (List.mem_cons_of_mem _ hq)
    intro device hdevice
    obtain ⟨id, hid, gpu, hgpu, hmatch⟩ := h device hdevice
    have hsame := (nvmlDevice_cases lib report.driverVersion monitor p).grown.same hplaced
    have hmem : identifiers gpu ∈ (nvmlDevice lib report.driverVersion monitor p.1 p.2).gpus.map identifiers := by
      rw [hsame]
      exact List.mem_map_of_mem hgpu
    obtain ⟨gpu', hgpu', hidentifiers⟩ := List.mem_map.mp hmem
    refine ⟨id, hid, gpu', hgpu', ?_⟩
    have hplatform : gpu'.platformIdentity = gpu.platformIdentity := congrArg Prod.fst hidentifiers
    rw [gpuPciBusId, hplatform]
    exact hmatch

/-! ### The refresh -/

/-- What is enumerated, in no particular order. -/
structure Devices where
  gpus : List LsmGpuRecord
  batteries : List LsmBatteryInfo
  npus : List NpuRecord
  bluetoothDevices : List LsmBluetoothDeviceInfo

/-- Every enumeration succeeds, with these devices. -/
structure TopologyInput.Shows (input : TopologyInput) (devices : Devices) : Prop where
  gpus : ∃ l, input.gpus = some l ∧ l.Perm devices.gpus
  batteries : ∃ l, input.batteries = some l ∧ l.Perm devices.batteries
  npus : ∃ l, input.npus = some l ∧ l.Perm devices.npus
  bluetoothDevices : ∃ l, input.bluetoothDevices = some l ∧ l.Perm devices.bluetoothDevices

def recordIdentifiers (record : LsmGpuRecord) : Chars 512 × Chars 64 := (record.deviceSyspath.path, record.card)

def npuInfo (record : NpuRecord) : LsmNpuInfo := ⟨record.accel, record.device.path⟩

/-- The lists are those a refresh publishes for the devices. -/
structure Published (devices : Devices) (monitor : LsmMonitor) : Prop where
  gpus : (monitor.gpus.map identifiers).Perm (devices.gpus.map recordIdentifiers)
  sorted : (monitor.gpus.map gpuStableIdentity).Pairwise fun a b => strcmpKey a.text ≤ strcmpKey b.text
  batteries : monitor.batteries.Perm devices.batteries
  npus : monitor.npus.Perm (devices.npus.map npuInfo)
  bluetoothDevices : monitor.bluetoothDevices.Perm devices.bluetoothDevices

/-- What a refresh does to the lists and to the generation. -/
theorem refresh_lists (lib : Library) (input : RefreshInput) (monitor : LsmMonitor) :
    let reconciled := lsmHardwareTopologyReconcile monitor (discovered lib input.toTopologyInput monitor)
    let t := refreshHardwareTopology lib input monitor
    t.gpus = reconciled.1.gpus ∧ t.batteries = reconciled.1.batteries ∧ t.npus = reconciled.1.npus ∧
      t.bluetoothDevices = reconciled.1.bluetoothDevices ∧
      t.topologyGeneration = monitor.topologyGeneration + if reconciled.2 then 1 else 0 := by
  intro reconciled t
  simp only [t, refreshHardwareTopology]
  cases hchanged : (lsmHardwareTopologyReconcile monitor (discovered lib input.toTopologyInput monitor)).2 with
  | false =>
    simp only [reconciled, Bool.false_eq_true, if_false]
    exact ⟨rfl, rfl, rfl, rfl, rfl⟩
  | true =>
    simp only [reconciled, if_true]
    exact ⟨rfl, rfl, rfl, rfl, rfl⟩

theorem map_identifiers_enumerate (records : List LsmGpuRecord) (gpus : List LsmGpuInfo) :
    (enumerateGpus (some records) gpus).map identifiers = records.map recordIdentifiers := by
  have hfun : (identifiers ∘ fun p : LsmGpuRecord × Nat => gpuInfo p.1 p.2) = recordIdentifiers ∘ Prod.fst := rfl
  rw [enumerateGpus, List.map_map, hfun, ← List.map_map, List.zipIdx_map_fst]

/-- Only the identifiers of the adapters matter. -/
theorem Published.congr {devices : Devices} {a b : LsmMonitor} (h : Published devices a)
    (hgpus : b.gpus.map identifiers = a.gpus.map identifiers)
    (hothers : b.batteries = a.batteries ∧ b.npus = a.npus ∧ b.bluetoothDevices = a.bluetoothDevices) :
    Published devices b where
  gpus := hgpus ▸ h.gpus
  sorted := map_gpuStableIdentity_congr hgpus ▸ h.sorted
  batteries := hothers.1 ▸ h.batteries
  npus := hothers.2.1 ▸ h.npus
  bluetoothDevices := hothers.2.2 ▸ h.bluetoothDevices

/-- The lists only depend on what was enumerated. -/
theorem Published.discovered (lib : Library) {devices : Devices} {input : TopologyInput} (h : input.Shows devices)
    (monitor : LsmMonitor) : Published devices (discovered lib input monitor) := by
  obtain ⟨records, hrecords, hrecordsPerm⟩ := h.gpus
  obtain ⟨batteries, hbatteries, hbatteriesPerm⟩ := h.batteries
  obtain ⟨npus, hnpus, hnpusPerm⟩ := h.npus
  obtain ⟨bluetoothDevices, hbluetooth, hbluetoothPerm⟩ := h.bluetoothDevices
  simp only [Hardware.discovered, hrecords, hbatteries, hnpus, hbluetooth, Option.getD_some]
  constructor
  · refine ((lib.qsort_perm _ _).map identifiers).trans ?_
    rw [map_identifiers_enumerate]
    exact hrecordsPerm.map recordIdentifiers
  · exact List.pairwise_map.mpr (lib.qsort_sorted _ _)
  · exact (lib.qsort_perm _ _).trans hbatteriesPerm
  · exact (lib.qsort_perm _ _).trans (hnpusPerm.map npuInfo)
  · exact hbluetoothPerm

theorem Published.refresh (lib : Library) {devices : Devices} {input : RefreshInput}
    (h : input.toTopologyInput.Shows devices) (monitor : LsmMonitor) :
    Published devices (refreshHardwareTopology lib input monitor) := by
  obtain ⟨hgpus, hbatteries, hnpus, hbluetooth, -⟩ := refresh_lists lib input monitor
  apply (Published.discovered lib h monitor).congr
  · rw [hgpus, lsmHardwareTopologyReconcile, List.map_map]
    apply List.map_congr_left
    intro gpu _
    exact identifiers_reconcileGpu _ gpu
  · exact ⟨hbatteries, hnpus, hbluetooth⟩

theorem strcmpKey_injective : Function.Injective strcmpKey :=
  List.map_injective_iff.mpr fun _ _ h => UInt8.toNat_inj.mp h

/-- The published identities are the sorted identities of the devices. -/
theorem Published.identities {devices : Devices} {a b : LsmMonitor} (ha : Published devices a)
    (hb : Published devices b) : a.gpus.map gpuStableIdentity = b.gpus.map gpuStableIdentity := by
  have hperm : (a.gpus.map gpuStableIdentity).Perm (b.gpus.map gpuStableIdentity) := by
    have hkeys := ha.gpus.trans hb.gpus.symm
    have hstable : ∀ l : List LsmGpuInfo, l.map gpuStableIdentity = (l.map identifiers).map fun key =>
        gpuStableIdentity {platformIdentity := key.1, displayIdentifier := key.2, driver := .empty} := by
      intro l
      rw [List.map_map]
      apply List.map_congr_left
      intro gpu _
      exact gpuStableIdentity_congr rfl
    rw [hstable, hstable]
    exact hkeys.map _
  refine hperm.eq_of_pairwise ?_ ha.sorted hb.sorted
  intro x y _ _ hxy hyx
  exact Chars.eq_of_text (strcmpKey_injective (le_antisymm hxy hyx))

theorem membersChanged_eq_false {α : Type} {same : α → α → Bool} {old new : List α} :
    membersChanged same old new = false ↔
      old.length = new.length ∧ ∀ member ∈ new, ∃ before ∈ old, same before member = true := by
  simp [membersChanged]

/-- Lists of the same members have not changed. -/
theorem membersChanged_of_perm {α : Type} {same : α → α → Bool} (hrefl : ∀ x, same x x = true) {old new : List α}
    (h : old.Perm new) : membersChanged same old new = false :=
  membersChanged_eq_false.mpr ⟨h.length_eq, fun member hmember => ⟨member, h.mem_iff.mpr hmember, hrefl member⟩⟩

theorem sameGpuIdentity_of_identifiers {a b : LsmGpuInfo} (h : identifiers a = identifiers b) :
    sameGpuIdentity a b = true := by
  obtain ⟨hplatform, hdisplay⟩ := Prod.mk.inj h
  unfold sameGpuIdentity
  split
  · exact decide_eq_true hplatform
  · exact decide_eq_true hdisplay

theorem sameNpuIdentity_refl (npu : LsmNpuInfo) : sameNpuIdentity npu npu = true := by
  unfold sameNpuIdentity
  split
  · exact decide_eq_true rfl
  · exact decide_eq_true rfl

/-- A refresh finds no change against lists it published itself. -/
theorem Published.unmoved (lib : Library) {devices : Devices} {monitor : LsmMonitor} (h : Published devices monitor)
    {input : RefreshInput} (hshows : input.toTopologyInput.Shows devices) :
    (refreshHardwareTopology lib input monitor).topologyGeneration = monitor.topologyGeneration := by
  obtain ⟨-, -, -, -, hgeneration⟩ := refresh_lists lib input monitor
  have hnew := Published.discovered lib hshows monitor
  have hgpus : membersChanged sameGpuIdentity monitor.gpus
      (Hardware.discovered lib input.toTopologyInput monitor).gpus = false := by
    have hperm := h.gpus.trans hnew.gpus.symm
    refine membersChanged_eq_false.mpr ⟨by simpa using hperm.length_eq, ?_⟩
    intro gpu hgpu
    obtain ⟨before, hbefore, hsame⟩ := List.mem_map.mp (hperm.mem_iff.mpr (List.mem_map_of_mem hgpu))
    exact ⟨before, hbefore, sameGpuIdentity_of_identifiers hsame⟩
  have hbatteries : membersChanged (fun a b : LsmBatteryInfo => decide (a.name = b.name)) monitor.batteries
      (Hardware.discovered lib input.toTopologyInput monitor).batteries = false := by
    apply membersChanged_of_perm _ (h.batteries.trans hnew.batteries.symm)
    intro battery
    exact decide_eq_true rfl
  have hnpus := membersChanged_of_perm sameNpuIdentity_refl (h.npus.trans hnew.npus.symm)
  have hbluetooth : membersChanged (fun a b : LsmBluetoothDeviceInfo => decide (a = b)) monitor.bluetoothDevices
      (Hardware.discovered lib input.toTopologyInput monitor).bluetoothDevices = false := by
    apply membersChanged_of_perm _ (h.bluetoothDevices.trans hnew.bluetoothDevices.symm)
    intro device
    exact decide_eq_true rfl
  rw [hgeneration]
  simp only [lsmHardwareTopologyReconcile, hardwareMembershipChanged, bluetoothMembershipChanged, hgpus, hbatteries,
    hnpus, hbluetooth, Bool.or_self, Bool.false_eq_true, if_false, Nat.add_zero]

/-- It finds one against a list of another length. -/
theorem refresh_moved (lib : Library) {devices : Devices} {monitor : LsmMonitor}
    (hlength : monitor.gpus.length ≠ devices.gpus.length) {input : RefreshInput}
    (hshows : input.toTopologyInput.Shows devices) :
    (refreshHardwareTopology lib input monitor).topologyGeneration ≠ monitor.topologyGeneration := by
  obtain ⟨-, -, -, -, hgeneration⟩ := refresh_lists lib input monitor
  have hnew := (Published.discovered lib hshows monitor).gpus.length_eq
  rw [List.length_map, List.length_map] at hnew
  have hchanged : membersChanged sameGpuIdentity monitor.gpus
      (Hardware.discovered lib input.toTopologyInput monitor).gpus = true := by
    rw [membersChanged, bne_iff_ne.mpr (by rwa [hnew]), Bool.true_or]
  rw [hgeneration]
  simp only [lsmHardwareTopologyReconcile, hardwareMembershipChanged, hchanged, Bool.true_or, if_true]
  exact Nat.succ_ne_self _

/-! ### Runs -/

/-- A refresh and the update after it. -/
structure Cycle where
  refresh : RefreshInput
  reads : UpdateReads
  report : Option NvmlReport

/-- The monitor as NVML finds it in a cycle. -/
def sampled (lib : Library) (monitor : LsmMonitor) (cycle : Cycle) : LsmMonitor :=
  let refreshed := refreshHardwareTopology lib cycle.refresh monitor
  updateGpusBelow lib cycle.reads refreshed.gpus.length refreshed

def updated (lib : Library) (monitor : LsmMonitor) (cycle : Cycle) : LsmMonitor :=
  updateGpus lib cycle.reads cycle.report (refreshHardwareTopology lib cycle.refresh monitor)

/-- Alternating refreshes and updates. -/
def cycles (lib : Library) : Machine LsmMonitor Cycle where
  step monitor cycle := some (updated lib monitor cycle)

/-- A cycle moves neither the generation, in either of its steps, nor the identities. -/
def Unmoved (lib : Library) (base monitor : LsmMonitor) (cycle : Cycle) : Prop :=
  (refreshHardwareTopology lib cycle.refresh monitor).topologyGeneration = base.topologyGeneration ∧
    (updated lib monitor cycle).topologyGeneration = base.topologyGeneration ∧
    (updated lib monitor cycle).gpus.map gpuStableIdentity = base.gpus.map gpuStableIdentity

/-- NVML finds an adapter for each of its devices. -/
def NvmlPlaced (lib : Library) (monitor : LsmMonitor) (cycle : Cycle) : Prop :=
  AllPlaced lib cycle.report (sampled lib monitor cycle)

theorem updateGpusBelow_frame (lib : Library) (reads : UpdateReads) (count : Nat) (monitor : LsmMonitor) :
    ∃ gpus gpuStates, updateGpusBelow lib reads count monitor = {monitor with gpus, gpuStates} ∧
      gpus.map identifiers = monitor.gpus.map identifiers := by
  induction count with
  | zero => exact ⟨monitor.gpus, monitor.gpuStates, rfl, rfl⟩
  | succ count ih =>
    obtain ⟨gpus, gpuStates, hbelow, hsame⟩ := ih
    obtain ⟨gpus', gpuStates', hupdate, hsame', -⟩ :=
      updateGpu_cases lib reads (updateGpusBelow lib reads count monitor) count
    rw [hbelow] at hsame'
    refine ⟨gpus', gpuStates', ?_, hsame'.trans hsame⟩
    rw [updateGpusBelow_succ, hupdate, hbelow]

section
variable {lib : Library} {devices : Devices} {monitor base : LsmMonitor} {cycle : Cycle}

theorem Published.sampled (lib : Library) (hshows : cycle.refresh.toTopologyInput.Shows devices)
    (monitor : LsmMonitor) :
    Published devices (sampled lib monitor cycle) ∧ (sampled lib monitor cycle).topologyGeneration =
      (refreshHardwareTopology lib cycle.refresh monitor).topologyGeneration := by
  have hrefresh := Published.refresh lib hshows monitor
  unfold Hardware.sampled
  dsimp only
  generalize refreshHardwareTopology lib cycle.refresh monitor = refreshed at hrefresh ⊢
  obtain ⟨gpus, gpuStates, hbelow, hsame⟩ := updateGpusBelow_frame lib cycle.reads refreshed.gpus.length refreshed
  rw [hbelow]
  exact ⟨hrefresh.congr hsame ⟨rfl, rfl, rfl⟩, rfl⟩

theorem updated_grown (lib : Library) (monitor : LsmMonitor) (cycle : Cycle) :
    Grown (NvmlPlaced lib monitor cycle) (sampled lib monitor cycle) (updated lib monitor cycle) :=
  nvmlRefresh_spec lib cycle.report (sampled lib monitor cycle)

/-- A cycle whose devices all have an adapter publishes the lists of the refresh. -/
theorem NvmlPlaced.published (hplaced : NvmlPlaced lib monitor cycle)
    (hshows : cycle.refresh.toTopologyInput.Shows devices) : Published devices (updated lib monitor cycle) := by
  have hgrown := updated_grown lib monitor cycle
  exact (Published.sampled lib hshows monitor).1.congr (hgrown.same hplaced) hgrown.others

/-- From published lists, a cycle moves nothing exactly when NVML appends nothing. -/
theorem unmoved_iff (hbase : Published devices base) (h : Published devices monitor)
    (hgeneration : monitor.topologyGeneration = base.topologyGeneration)
    (hshows : cycle.refresh.toTopologyInput.Shows devices) :
    Unmoved lib base monitor cycle ↔ NvmlPlaced lib monitor cycle := by
  have hrefresh := h.unmoved lib hshows
  have hsampled := (Published.sampled lib hshows monitor).2
  have hgrown := updated_grown lib monitor cycle
  constructor
  · intro hunmoved
    apply hgrown.unmoved.mpr
    rw [hunmoved.2.1, hsampled, hrefresh, hgeneration]
  · intro hplaced
    refine ⟨hrefresh.trans hgeneration, ?_, (hplaced.published hshows).identities hbase⟩
    rw [hgrown.unmoved.mp hplaced, hsampled, hrefresh, hgeneration]

theorem admissible_unmoved_iff (hbase : Published devices base) (h : Published devices monitor)
    (hgeneration : monitor.topologyGeneration = base.topologyGeneration) (later : List Cycle)
    (hshows : ∀ cycle ∈ later, cycle.refresh.toTopologyInput.Shows devices) :
    (cycles lib).Admissible (Unmoved lib base) monitor later ↔
      (cycles lib).Admissible (NvmlPlaced lib) monitor later := by
  induction later generalizing monitor with
  | nil => exact Iff.rfl
  | cons cycle rest ih =>
    obtain ⟨hcycle, hrest⟩ := List.forall_mem_cons.mp hshows
    have hstep : Unmoved lib base monitor cycle ↔ NvmlPlaced lib monitor cycle :=
      unmoved_iff hbase h hgeneration hcycle
    have hnext : NvmlPlaced lib monitor cycle →
        ((cycles lib).Admissible (Unmoved lib base) (updated lib monitor cycle) rest ↔
          (cycles lib).Admissible (NvmlPlaced lib) (updated lib monitor cycle) rest) := by
      intro hplaced
      exact ih (hplaced.published hcycle) (hstep.mpr hplaced).2.1 hrest
    constructor
    · intro hrun
      have hplaced := hstep.mp hrun.1
      refine ⟨hplaced, fun t ht => ?_⟩
      cases ht
      exact (hnext hplaced).mp (hrun.2 _ rfl)
    · intro hrun
      refine ⟨hstep.mpr hrun.1, fun t ht => ?_⟩
      cases ht
      exact (hnext hrun.1).mpr (hrun.2 _ rfl)

/-- What the first update appended, the refresh after it drops. -/
theorem placed_of_refresh (hfirst : cycle.refresh.toTopologyInput.Shows devices) {input : RefreshInput}
    (hshows : input.toTopologyInput.Shows devices)
    (hunmoved : (refreshHardwareTopology lib input (updated lib monitor cycle)).topologyGeneration =
      (updated lib monitor cycle).topologyGeneration) : NvmlPlaced lib monitor cycle := by
  have hgrown := updated_grown lib monitor cycle
  have hlength : (updated lib monitor cycle).gpus.length = devices.gpus.length := by
    by_contra hne
    exact refresh_moved lib hne hshows hunmoved
  have hsampled := (Published.sampled lib hfirst monitor).1.gpus.length_eq
  rw [List.length_map, List.length_map] at hsampled
  have hbalance := hgrown.balance
  apply hgrown.unmoved.mpr
  omega

end

/-- **`topology_generation` moves only with membership exactly when NVML has no device
of its own.** While the enumerations list the same devices in any order, neither step
of a later cycle moves the generation and every update publishes the same identities,
if and only if in each cycle of the run, the first included, NVML finds an adapter for
each of its devices. -/
theorem topology_generation_unmoved_iff (lib : Library) (devices : Devices) (start : LsmMonitor) (first : Cycle)
    (later : List Cycle) (hlater : later ≠ [])
    (hshows : ∀ cycle ∈ first :: later, cycle.refresh.toTopologyInput.Shows devices) :
    (cycles lib).Admissible (Unmoved lib (updated lib start first)) (updated lib start first) later ↔
      (cycles lib).Admissible (NvmlPlaced lib) start (first :: later) := by
  obtain ⟨hfirst, hrest⟩ := List.forall_mem_cons.mp hshows
  have hrunIff : NvmlPlaced lib start first →
      ((cycles lib).Admissible (Unmoved lib (updated lib start first)) (updated lib start first) later ↔
        (cycles lib).Admissible (NvmlPlaced lib) (updated lib start first) later) := by
    intro hplaced
    have hbase := hplaced.published hfirst
    exact admissible_unmoved_iff hbase hbase rfl later hrest
  constructor
  · intro hrun
    have hplaced : NvmlPlaced lib start first := by
      cases later with
      | nil => exact absurd rfl hlater
      | cons cycle rest => exact placed_of_refresh hfirst (hrest cycle (List.mem_cons_self ..)) hrun.1.1
    refine ⟨hplaced, fun t ht => ?_⟩
    cases ht
    exact (hrunIff hplaced).mp hrun
  · intro hrun
    exact (hrunIff hrun.1).mpr (hrun.2 _ rfl)

section
variable (lib : Library) (monitor : LsmMonitor)

instance (p : NvmlDevice × Nat) : Decidable (Placed lib monitor p) :=
  inferInstanceAs (Decidable (p.1.answers = true → (matchedGpu lib monitor.gpus p.2 p.1).isSome = true ∨
    (∃ gpu ∈ monitor.gpus, gpu.displayIdentifier = nvmlCard lib p.2 p.1) ∨ lsmMaxGpus ≤ monitor.gpus.length))

instance (report : Option NvmlReport) : Decidable (AllPlaced lib report monitor) :=
  inferInstanceAs (Decidable (∀ r ∈ report,
    (nvmlTurns lib r.driverVersion).Admissible (Placed lib) monitor r.devices.zipIdx))

instance (cycle : Cycle) : Decidable (NvmlPlaced lib monitor cycle) :=
  inferInstanceAs (Decidable (AllPlaced lib cycle.report (sampled lib monitor cycle)))

instance (base : LsmMonitor) (cycle : Cycle) : Decidable (Unmoved lib base monitor cycle) :=
  inferInstanceAs (Decidable (_ ∧ _ ∧ _))

end

/-- One NVML device beside these adapters, and nothing else. -/
def nvmlCycle (gpus : List LsmGpuRecord) : Cycle where
  refresh := engineRefresh (some gpus)
  reads := engineReads 0
  report := some {devices := [{pciBusId := some (ascii "0:1:0.0")}]}

/-- Its adapter is dropped by each refresh and appended again by each update. -/
theorem topology_generation_moves : let cycle := nvmlCycle []
    let start := updated .documented {} cycle
    cycle.refresh.toTopologyInput.Shows ⟨[], [], [], []⟩ ∧ start.topologyGeneration = 1 ∧
    (refreshHardwareTopology .documented cycle.refresh start).topologyGeneration = 2 ∧
    (updated .documented start cycle).topologyGeneration = 3 ∧
    ¬ (cycles .documented).Admissible (Unmoved .documented start) start [cycle] := by
  refine ⟨⟨⟨[], rfl, .nil⟩, ⟨[], rfl, .nil⟩, ⟨[], rfl, .nil⟩, ⟨[], rfl, .nil⟩⟩, ?_⟩
  decide

def nvidiaRecord : LsmGpuRecord := ⟨printed (ascii "card0"), .empty, .empty, printed (ascii "nvidia"),
  printed (ascii "/sys/devices/0000:01:00.0"), by decide⟩

theorem topology_generation_unmoved_matched : let start := updated .documented {} (nvmlCycle [nvidiaRecord])
    start.topologyGeneration = 1 ∧
    (cycles .documented).Admissible (Unmoved .documented start) start [nvmlCycle [nvidiaRecord]] := by
  refine ⟨by decide, ?_⟩
  refine (topology_generation_unmoved_iff .documented ⟨[nvidiaRecord], [], [], []⟩ {} (nvmlCycle [nvidiaRecord])
    [nvmlCycle [nvidiaRecord]] (List.cons_ne_nil _ _) ?_).mpr (by decide)
  intro cycle hcycle
  have hsame : cycle = nvmlCycle [nvidiaRecord] := by simpa using hcycle
  rw [hsame]
  exact ⟨⟨[nvidiaRecord], rfl, .refl _⟩, ⟨[], rfl, .nil⟩, ⟨[], rfl, .nil⟩, ⟨[], rfl, .nil⟩⟩

end SystemMonitor.Hardware
