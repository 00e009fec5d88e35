import SystemMonitor.Overview.Sample

/-! Back from a sample to the device it was derived from.

A sample keeps a text and a name of the busiest interface and of the busiest GPU, and the
first device that matches them is taken. A GPU is kept by its own identity and is found
again. An interface is kept by its MAC address, which a VLAN or a bridge shares with the
interface below it: it is found again exactly where it is the first with that address
(`resolves_iff`). -/
namespace SystemMonitor.Overview

def identityMatches (savedIdentity savedName currentIdentity currentName : Text) : Bool :=
  if savedIdentity ≠ [] ∧ currentIdentity ≠ [] then savedIdentity = currentIdentity
  else savedName ≠ [] ∧ currentName ≠ [] ∧ savedName = currentName

/-- The text an interface is kept by. -/
def LsmNetInfo.address (net : LsmNetInfo) : Text := preferred net.mac.text net.name.text

def LsmNetInfo.label (net : LsmNetInfo) : Text := preferred net.product.text net.name.text

/-- The text a GPU is kept by. -/
def LsmGpuInfo.identity (gpu : LsmGpuInfo) : Text := preferred gpu.platformIdentity.text gpu.displayIdentifier.text

def LsmGpuInfo.label (gpu : LsmGpuInfo) : Text := preferred gpu.name.text gpu.displayIdentifier.text

/-- `lsm_overview_resolve_network`; `none` is `SIZE_MAX`. -/
def lsmOverviewResolveNetwork (monitor : LsmMonitor) (sample : LsmOverviewSample) : Option Nat :=
  if sample.networkAvailable then
    monitor.nets.findIdx? fun net =>
      identityMatches sample.networkIdentity.text sample.networkName.text net.address net.label
  else none

/-- `lsm_overview_resolve_gpu`. -/
def lsmOverviewResolveGpu (monitor : LsmMonitor) (sample : LsmOverviewSample) : Option Nat :=
  if monitor.gpus = [] then none
  else if sample.gpuAvailable then
    monitor.gpus.findIdx? fun gpu => identityMatches sample.gpuIdentity.text sample.gpuName.text gpu.identity gpu.label
  else some 0

/-- A snapshot whose devices the kernel tells apart: an interface has a name and an instance of its
own, and a GPU has an identity of its own. -/
structure Snapshot where
  monitor : LsmMonitor
  net_named : ∀ net ∈ monitor.nets, net.name.text ≠ []
  net_distinct : (monitor.nets.map (·.instanceIdentity)).Nodup
  gpu_identified : ∀ gpu ∈ monitor.gpus, gpu.identity ≠ []
  gpu_distinct : (monitor.gpus.map LsmGpuInfo.identity).Nodup

/-- The sample of a snapshot leads back to the devices it was derived from. -/
def Resolves (monitor : LsmMonitor) (sample : LsmOverviewSample) : Prop :=
  (sample.networkAvailable = true → lsmOverviewResolveNetwork monitor sample = some sample.networkIndex) ∧
    (sample.gpuAvailable = true → lsmOverviewResolveGpu monitor sample = some sample.gpuIndex)

/-- The busiest interface is the first one with its address. -/
def AddressFirst (nets : List LsmNetInfo) : Prop :=
  ∀ index net, IsBusiest networkRate nets index → nets[index]? = some net →
    ∀ earlier ∈ nets.take index, earlier.address ≠ net.address

/-! ### What a sample keeps -/

theorem identityMatches_identified {savedIdentity currentIdentity : Text} (hsaved : savedIdentity ≠ [])
    (hcurrent : currentIdentity ≠ []) (savedName currentName : Text) :
    identityMatches savedIdentity savedName currentIdentity currentName = decide (savedIdentity = currentIdentity) :=
  if_pos ⟨hsaved, hcurrent⟩

theorem preferred_ne_nil {primary fallback : Text} (h : fallback ≠ []) : preferred primary fallback ≠ [] := by
  rw [preferred]
  split
  next hprimary => exact hprimary
  next => exact h

/-- Of two texts that fit, the kept one is not cut. -/
theorem copyIdentity_text {n a b : Nat} {primary : Chars a} {fallback : Chars b} (ha : a ≤ n) (hb : b ≤ n) :
    (copyIdentity primary.text fallback.text : Chars n).text = preferred primary.text fallback.text := by
  have hprimary := primary.fits
  have hfallback := fallback.fits
  rw [copyIdentity]
  refine Chars.ofText_text ?_ ?_
  · rw [preferred]
    split
    next => exact primary.nulFree
    next => exact fallback.nulFree
  · rw [preferred]
    split <;> omega

/-- What finds an interface again. -/
def LsmOverviewSample.network (sample : LsmOverviewSample) : Bool × Nat × Text :=
  (sample.networkAvailable, sample.networkIndex, sample.networkIdentity.text)

/-- What finds a GPU again. -/
def LsmOverviewSample.gpu (sample : LsmOverviewSample) : Bool × Nat × Text :=
  (sample.gpuAvailable, sample.gpuIndex, sample.gpuIdentity.text)

section Kept
variable (monitor : LsmMonitor)

theorem deriveDisk_kept (sample : LsmOverviewSample) :
    (deriveDisk monitor sample).network = sample.network ∧ (deriveDisk monitor sample).gpu = sample.gpu := by
  simp only [deriveDisk]
  split <;> exact ⟨rfl, rfl⟩

theorem deriveMemory_kept (sample : LsmOverviewSample) :
    (deriveMemory monitor sample).network = sample.network ∧ (deriveMemory monitor sample).gpu = sample.gpu := by
  rw [deriveMemory]
  split <;> exact ⟨rfl, rfl⟩

theorem deriveNetwork_gpu (sample : LsmOverviewSample) : (deriveNetwork monitor sample).gpu = sample.gpu := by
  rw [deriveNetwork]
  split <;> rfl

theorem deriveGpu_network (sample : LsmOverviewSample) : (deriveGpu monitor sample).network = sample.network := by
  rw [deriveGpu]
  split <;> rfl

theorem deriveNetwork_network {sample : LsmOverviewSample} (h : sample.network = (false, 0, [])) :
    (deriveNetwork monitor sample).network =
      match (busiest networkRate monitor.nets).map (·.1) with
      | none => (false, 0, [])
      | some index => (true, index, (monitor.nets.getD index {}).address) := by
  rw [deriveNetwork]
  split
  next hnone => rw [h, hnone, Option.map_none]
  next index rate hsome =>
    rw [hsome, Option.map_some]
    exact congrArg (fun text => (true, index, text)) (copyIdentity_text (by decide) (by decide))

theorem deriveGpu_gpu {sample : LsmOverviewSample} (h : sample.gpu = (false, 0, [])) :
    (deriveGpu monitor sample).gpu =
      match (busiest gpuUsage monitor.gpus).map (·.1) with
      | none => (false, 0, [])
      | some index => (true, index, (monitor.gpus.getD index {}).identity) := by
  rw [deriveGpu]
  split
  next hnone => rw [h, hnone, Option.map_none]
  next index usage hsome =>
    rw [hsome, Option.map_some]
    exact congrArg (fun text => (true, index, text)) (copyIdentity_text (by decide) (by decide))

theorem deriveSample_network (seconds : ℚ) :
    (deriveSample monitor seconds).network =
      match (busiest networkRate monitor.nets).map (·.1) with
      | none => (false, 0, [])
      | some index => (true, index, (monitor.nets.getD index {}).address) := by
  calc (deriveSample monitor seconds).network
      = (deriveTemperature monitor _).network := rfl
    _ = (deriveNetwork monitor _).network := by
        rw [deriveTemperature_frame monitor _ LsmOverviewSample.network fun _ _ _ _ _ _ _ => rfl, deriveGpu_network]
    _ = _ := deriveNetwork_network monitor (by rw [(deriveDisk_kept monitor _).1, (deriveMemory_kept monitor _).1]; rfl)

theorem deriveSample_gpu (seconds : ℚ) :
    (deriveSample monitor seconds).gpu =
      match (busiest gpuUsage monitor.gpus).map (·.1) with
      | none => (false, 0, [])
      | some index => (true, index, (monitor.gpus.getD index {}).identity) := by
  calc (deriveSample monitor seconds).gpu
      = (deriveTemperature monitor _).gpu := rfl
    _ = (deriveGpu monitor _).gpu := by
        rw [deriveTemperature_frame monitor _ LsmOverviewSample.gpu fun _ _ _ _ _ _ _ => rfl]
    _ = _ := deriveGpu_gpu monitor
        (by rw [deriveNetwork_gpu, (deriveDisk_kept monitor _).2, (deriveMemory_kept monitor _).2]; rfl)

end Kept

/-! ### Finding it again -/

/-- The first device that is kept by the same text. -/
theorem findIdx?_address {α : Type} {devices : List α} {address label : α → Text}
    (haddress : ∀ device ∈ devices, address device ≠ []) {index : Nat} {device : α}
    (hdevice : devices[index]? = some device) (name : Text) :
    (devices.findIdx? fun device' => identityMatches (address device) name (address device') (label device')) =
        some index ↔ ∀ earlier ∈ devices.take index, address earlier ≠ address device := by
  obtain ⟨hindex, rfl⟩ := List.getElem?_eq_some_iff.mp hdevice
  have hmatches : ∀ device' ∈ devices,
      identityMatches (address devices[index]) name (address device') (label device') =
        decide (address devices[index] = address device') := fun device' hmem =>
    identityMatches_identified (haddress _ (List.getElem_mem hindex)) (haddress _ hmem) _ _
  rw [List.findIdx?_eq_some_iff_getElem]
  constructor
  · intro ⟨_, _, hbefore⟩ earlier hearlier
    obtain ⟨j, hj, rfl⟩ := List.mem_take_iff_getElem.mp hearlier
    have hnot := hbefore j (by omega)
    rw [hmatches _ (List.getElem_mem _), decide_eq_true_iff] at hnot
    exact fun heq => hnot heq.symm
  · intro hfirst
    refine ⟨hindex, ?_, fun j hj => ?_⟩
    · rw [hmatches _ (List.getElem_mem _)]
      exact decide_eq_true rfl
    · rw [hmatches _ (List.getElem_mem _), decide_eq_true_iff]
      exact fun heq => hfirst _ (List.mem_take_iff_getElem.mpr ⟨j, by omega, rfl⟩) heq.symm

/-- In a list without repetitions every device is the first of its kind. -/
theorem first_of_nodup {α : Type} {devices : List α} {address : α → Text} (h : (devices.map address).Nodup)
    {index : Nat} {device : α} (hdevice : devices[index]? = some device) :
    ∀ earlier ∈ devices.take index, address earlier ≠ address device := by
  obtain ⟨hindex, rfl⟩ := List.getElem?_eq_some_iff.mp hdevice
  intro earlier hearlier heq
  obtain ⟨j, hj, rfl⟩ := List.mem_take_iff_getElem.mp hearlier
  have hne := List.pairwise_iff_getElem.mp h j index (by rw [List.length_map]; omega) (by rw [List.length_map]; omega)
    (by omega)
  rw [List.getElem_map, List.getElem_map] at hne
  exact hne heq

theorem resolveNetwork_iff {monitor : LsmMonitor} (hnamed : ∀ net ∈ monitor.nets, net.name.text ≠ []) (seconds : ℚ) :
    ((deriveSample monitor seconds).networkAvailable = true →
      lsmOverviewResolveNetwork monitor (deriveSample monitor seconds) =
        some (deriveSample monitor seconds).networkIndex) ↔ AddressFirst monitor.nets := by
  have hsample := deriveSample_network monitor seconds
  generalize deriveSample monitor seconds = sample at hsample ⊢
  cases hbest : (busiest networkRate monitor.nets).map (·.1) with
  | none =>
    rw [hbest] at hsample
    have hgone : sample.networkAvailable = false := congrArg (·.1) hsample
    rw [hgone]
    refine iff_of_true (fun h => nomatch h) fun index net hbusiest => ?_
    rw [busiest_index_iff.mpr hbusiest] at hbest
    exact nomatch hbest
  | some index =>
    rw [hbest] at hsample
    have havailable : sample.networkAvailable = true := congrArg (·.1) hsample
    have hindex : sample.networkIndex = index := congrArg (·.2.1) hsample
    have hbusiest := busiest_index_iff.mp hbest
    obtain ⟨rate, ⟨net, hnet, -⟩, -⟩ := id hbusiest
    have hget : monitor.nets.getD index {} = net := by rw [List.getD_eq_getElem?_getD, hnet, Option.getD_some]
    have hidentity : sample.networkIdentity.text = net.address :=
      (congrArg (·.2.2) hsample).trans (congrArg LsmNetInfo.address hget)
    have haddress : ∀ net ∈ monitor.nets, net.address ≠ [] := fun net hmem => preferred_ne_nil (hnamed net hmem)
    rw [lsmOverviewResolveNetwork, if_pos havailable, hindex, hidentity,
      findIdx?_address haddress hnet, imp_iff_right havailable]
    constructor
    · intro hfirst index' net' hbusiest' hnet'
      obtain rfl := Option.some.inj (hbest.symm.trans (busiest_index_iff.mpr hbusiest'))
      obtain rfl := Option.some.inj (hnet.symm.trans hnet')
      exact hfirst
    · intro hfirst
      exact hfirst index net hbusiest hnet

theorem resolveGpu_derived {monitor : LsmMonitor} (hidentified : ∀ gpu ∈ monitor.gpus, gpu.identity ≠ [])
    (hdistinct : (monitor.gpus.map LsmGpuInfo.identity).Nodup) (seconds : ℚ)
    (havailable : (deriveSample monitor seconds).gpuAvailable = true) :
    lsmOverviewResolveGpu monitor (deriveSample monitor seconds) = some (deriveSample monitor seconds).gpuIndex := by
  have hsample := deriveSample_gpu monitor seconds
  generalize deriveSample monitor seconds = sample at hsample havailable ⊢
  cases hbest : (busiest gpuUsage monitor.gpus).map (·.1) with
  | none =>
    rw [hbest] at hsample
    have hgone : sample.gpuAvailable = false := congrArg (·.1) hsample
    exact nomatch hgone.symm.trans havailable
  | some index =>
    rw [hbest] at hsample
    have hindex : sample.gpuIndex = index := congrArg (·.2.1) hsample
    obtain ⟨usage, ⟨gpu, hgpu, -⟩, -⟩ := busiest_index_iff.mp hbest
    have hget : monitor.gpus.getD index {} = gpu := by rw [List.getD_eq_getElem?_getD, hgpu, Option.getD_some]
    have hidentity : sample.gpuIdentity.text = gpu.identity :=
      (congrArg (·.2.2) hsample).trans (congrArg LsmGpuInfo.identity hget)
    rw [lsmOverviewResolveGpu, if_neg (List.ne_nil_of_mem (List.mem_of_getElem? hgpu)), if_pos havailable, hindex,
      hidentity]
    exact (findIdx?_address hidentified hgpu _).mpr (first_of_nodup hdistinct hgpu)

/-- **A sample leads back to its devices exactly where the busiest interface is the first with its
address**: the MAC address, or the name of an interface that has none. -/
theorem resolves_iff (snapshot : Snapshot) (seconds : ℚ) :
    Resolves snapshot.monitor (deriveSample snapshot.monitor seconds) ↔ AddressFirst snapshot.monitor.nets := by
  rw [Resolves, resolveNetwork_iff snapshot.net_named]
  exact and_iff_left (resolveGpu_derived snapshot.gpu_identified snapshot.gpu_distinct seconds)

/-! ### A VLAN -/

/-- An interface at rest and a busy VLAN on top of it. -/
def vlanNets : List LsmNetInfo :=
  [{ name := .ofText (ascii "eth0"), instanceIdentity := .ofText (ascii "ifindex:2|mac:02:00:00:00:00:01"),
     mac := .ofText (ascii "02:00:00:00:00:01") },
   { name := .ofText (ascii "eth0.10"), instanceIdentity := .ofText (ascii "ifindex:3|mac:02:00:00:00:00:01"),
     mac := .ofText (ascii "02:00:00:00:00:01"), rxBytesPerSec := .finite 1000 }]

theorem vlanNets_distinct : (vlanNets.map (·.instanceIdentity)).Nodup := by decide

theorem vlanNets_named : ∀ net ∈ vlanNets, net.name.text ≠ [] := by decide

def vlanSnapshot : Snapshot where
  monitor := { nets := vlanNets, sampleGeneration := 1, sampleMonotonicSeconds := .finite 1 }
  net_named := vlanNets_named
  net_distinct := vlanNets_distinct
  gpu_identified := fun _ h => nomatch h
  gpu_distinct := .nil

/-- The VLAN was derived, and the interface below it is found. -/
theorem vlan_resolves_below :
    (deriveSample vlanSnapshot.monitor 1).networkAvailable = true ∧
      (deriveSample vlanSnapshot.monitor 1).networkIndex = 1 ∧
      lsmOverviewResolveNetwork vlanSnapshot.monitor (deriveSample vlanSnapshot.monitor 1) = some 0 ∧
      ¬∀ (snapshot : Snapshot) (seconds : ℚ), Resolves snapshot.monitor (deriveSample snapshot.monitor seconds) := by
  have havailable : (deriveSample vlanSnapshot.monitor 1).networkAvailable = true := by decide +kernel
  have hindex : (deriveSample vlanSnapshot.monitor 1).networkIndex = 1 := by decide +kernel
  have hresolved : lsmOverviewResolveNetwork vlanSnapshot.monitor (deriveSample vlanSnapshot.monitor 1) = some 0 := by
    decide +kernel
  refine ⟨havailable, hindex, hresolved, fun hall => ?_⟩
  have hback := (hall vlanSnapshot 1).1 havailable
  rw [hresolved, hindex] at hback
  exact absurd hback (by decide)

end SystemMonitor.Overview
