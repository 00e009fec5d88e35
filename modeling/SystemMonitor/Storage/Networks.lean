import SystemMonitor.Storage.Disks

/-! Finding the network interfaces, accounting for their traffic, and the two
calls of the storage collector.

The interfaces are listed again only when the event socket says that a link or
an address has changed, or when there is no such socket. -/
namespace SystemMonitor.Storage
open Lib Sources

/-! ### Refresh -/

def networkInstanceMatches (leftIdentity : Identity) (leftName : Name) (rightIdentity : Identity) (rightName : Name) :
    Bool :=
  if leftIdentity.text ≠ [] ∧ rightIdentity.text ≠ [] then decide (leftIdentity = rightIdentity)
  else decide (leftName = rightName)

def networkStateMatches (net : LsmNetInfo) (state : LsmLinuxNetworkState) : Bool :=
  networkInstanceMatches state.instanceIdentity state.name net.instanceIdentity net.name

def findNetworkState (states : List LsmLinuxNetworkState) (net : LsmNetInfo) : Option LsmLinuxNetworkState :=
  states.find? (networkStateMatches net)

def reconcileNetworkState (states : List LsmLinuxNetworkState) (net : LsmNetInfo) : LsmLinuxNetworkState :=
  match findNetworkState states net with
  | some old => {old with name := net.name, instanceIdentity := net.instanceIdentity}
  | none => {name := net.name, instanceIdentity := net.instanceIdentity}

def reconcileNetworkStates (states : List LsmLinuxNetworkState) (nets : List LsmNetInfo) : List LsmLinuxNetworkState :=
  (nets.take lsmMaxNets).map (reconcileNetworkState states)

def findOldNetwork (nets : List LsmNetInfo) (net : LsmNetInfo) : Option LsmNetInfo :=
  nets.find? fun old => networkInstanceMatches old.instanceIdentity old.name net.instanceIdentity net.name

/-- What `lsm_sources_list_networks_checked` stores in the array it is given. -/
structure Networks where
  records : List LsmNetworkRecord
  fits : records.length ≤ lsmMaxNets

def discoveredNet (record : LsmNetworkRecord) : LsmNetInfo where
  name := record.name
  instanceIdentity := record.instanceIdentity
  mac := record.mac
  product := record.product
  vendor := record.vendor
  wireless := record.wireless

/-- An interface that was there before keeps all but what the listing says. -/
def retainNet (nets : List LsmNetInfo) (identity : LsmNetInfo) : LsmNetInfo :=
  match findOldNetwork nets identity with
  | none => identity
  | some old =>
    { old with
      name := identity.name
      instanceIdentity := identity.instanceIdentity
      mac := identity.mac
      product := identity.product
      vendor := identity.vendor
      wireless := identity.wireless }

def netsChanged (discovered nets : List LsmNetInfo) : Bool :=
  decide (discovered.length ≠ nets.length) ||
    (discovered.zip nets).any fun p =>
      !networkInstanceMatches p.1.instanceIdentity p.1.name p.2.instanceIdentity p.2.name

/-- `none` is a failed enumeration. -/
def refreshNetworks (lib : Library) (m : LsmMonitor) (networks : Option Networks) : LsmMonitor × Bool :=
  match networks with
  | none => (m, false)
  | some networks =>
    let discovered := lib.qsortNets ((networks.records.map discoveredNet).map (retainNet m.nets))
    ({ m with
        networkStates := reconcileNetworkStates m.networkStates discovered
        nets := discovered
        topologyGeneration := if netsChanged discovered m.nets then (m.topologyGeneration + 1) % 2 ^ 64
          else m.topologyGeneration }, true)

/-- One entry of `getifaddrs`. -/
inductive InterfaceAddress where
  | ipv4 (name : Text) (address : Chars 64)
  | ipv6 (name : Text) (address : Chars 128)

/-- The first address of each family. -/
def interfaceIpv4 (addresses : List InterfaceAddress) (name : Name) : Chars 64 :=
  (addresses.findSome? fun entry =>
    match entry with
    | .ipv4 interface address => if interface = name.text ∧ address.text ≠ [] then some address else none
    | .ipv6 _ _ => none).getD .empty

def interfaceIpv6 (addresses : List InterfaceAddress) (name : Name) : Chars 128 :=
  (addresses.findSome? fun entry =>
    match entry with
    | .ipv6 interface address => if interface = name.text ∧ address.text ≠ [] then some address else none
    | .ipv4 _ _ => none).getD .empty

def updateInterfaceAddresses (m : LsmMonitor) (addresses : Option (List InterfaceAddress)) : LsmMonitor :=
  match addresses with
  | none => m
  | some addresses =>
    {m with nets := m.nets.map fun net =>
      {net with ipv4 := interfaceIpv4 addresses net.name, ipv6 := interfaceIpv6 addresses net.name}}

/-! ### Update -/

/-- What sysfs and the wireless metadata say of an interface. -/
structure LinkDetails where
  operstate : Name → Option (Chars 32)
  speed : Name → Option ℚ
  /-- `lsm_wifi_metadata_refresh`, for the bitrate of a wireless interface. -/
  wifiSpeed : Name → ℚ

def asciiToUpper (b : UInt8) : UInt8 := if 97 ≤ b ∧ b ≤ 122 then b - 32 else b

theorem asciiToUpper_ne_zero {b : UInt8} (h : b ≠ 0) : asciiToUpper b ≠ 0 := by
  unfold asciiToUpper
  split
  · rename_i hletter
    intro hzero
    have hle := UInt8.le_iff_toNat_le.mp hletter.1
    have hsub : (b - 32).toNat = b.toNat - 32 :=
      UInt8.toNat_sub_of_le b 32 (UInt8.le_iff_toNat_le.mpr (by simp at hle ⊢; omega))
    rw [hzero] at hsub
    simp at hle hsub
    omega
  · exact h

/-- The state with its first letter in upper case. -/
def capitalised (state : Chars 32) : Chars 32 where
  text := state.text.modifyHead asciiToUpper
  fits := by
    rw [List.length_modifyHead]
    exact state.fits
  nulFree := by
    obtain ⟨text, fits, nulFree⟩ := state
    cases text with
    | nil => exact List.not_mem_nil
    | cons b rest =>
      intro h
      rcases List.mem_cons.mp h with hhead | hrest
      · exact asciiToUpper_ne_zero (fun hb => nulFree (hb ▸ List.mem_cons_self ..)) hhead.symm
      · exact nulFree (List.mem_cons_of_mem _ hrest)

def unknownText : Chars 32 := ⟨ascii "Unknown", by decide, by decide⟩

def updateNetworkLinkDetails (details : LinkDetails) (net : LsmNetInfo) : LsmNetInfo :=
  if net.name.text = [] then net
  else
    let connectionState :=
      match details.operstate net.name with
      | some state => if state.text ≠ [] then capitalised state else unknownText
      | none => unknownText
    let linkSpeedMbps :=
      if net.wireless then net.linkSpeedMbps
      else
        match details.speed net.name with
        | some speed => if 0 < speed then speed else 0
        | none => 0
    {net with connectionState, linkSpeedMbps}

/-- The counters of an interface: the first record of its name and instance. -/
def findNetworkCounters (counters : Option (List LsmNetworkCounterRecord)) (net : LsmNetInfo) :
    Option LsmNetworkCounterRecord :=
  counters.bind fun records => records.find? fun record =>
    decide (net.name = record.name) &&
      networkInstanceMatches net.instanceIdentity net.name record.instanceIdentity record.name

/-- The state that `find_network_state` points to, changed in place. -/
def setNetworkState (net : LsmNetInfo) (state : LsmLinuxNetworkState) :
    List LsmLinuxNetworkState → List LsmLinuxNetworkState
  | [] => []
  | old :: rest => if networkStateMatches net old then state :: rest else old :: setNetworkState net state rest

/-- The rates of an interface, with its old counters in the state. -/
def networkRates (lib : Library) (record : Option LsmNetworkCounterRecord) (state : Option LsmLinuxNetworkState)
    (elapsed : ℚ) : Option ℚ × Option ℚ :=
  match record, state with
  | some record, some state =>
    if state.initialized && decide (0 < elapsed) then
      (lib.u64CounterRate record.rxBytes state.previousRx 1 elapsed,
        lib.u64CounterRate record.txBytes state.previousTx 1 elapsed)
    else (none, none)
  | _, _ => (none, none)

def networkUtilisation (available : Bool) (net : LsmNetInfo) : Option ℚ :=
  match net.rxBytesPerSec, net.txBytesPerSec with
  | some rx, some tx =>
    if available && decide (0 < net.linkSpeedMbps) then
      some (min 100 (max 0 (max rx tx * 100 / (net.linkSpeedMbps * 1000000 / 8))))
    else none
  | _, _ => none

/-- The body of the loop over the interfaces. -/
def updateNetwork (lib : Library) (counters : Option (List LsmNetworkCounterRecord)) (details : LinkDetails)
    (elapsed : ℚ) (refreshLinkMetadata : Bool) (states : List LsmLinuxNetworkState) (net : LsmNetInfo) :
    LsmNetInfo × List LsmLinuxNetworkState :=
  let record := findNetworkCounters counters net
  let state := findNetworkState states net
  let rates := networkRates lib record state elapsed
  let counted :=
    { net with
      rxBytesPerSec := rates.1
      txBytesPerSec := rates.2
      rxBytesTotal := (record.map fun r => r.rxBytes).getD net.rxBytesTotal
      txBytesTotal := (record.map fun r => r.txBytes).getD net.txBytesTotal }
  let linked := if refreshLinkMetadata || decide (net.connectionState.text = []) then
    updateNetworkLinkDetails details counted else counted
  let wifi := if linked.wireless && decide (linked.name.text ≠ []) then
    {linked with linkSpeedMbps := max 0 (details.wifiSpeed linked.name)} else linked
  let utilisation := networkUtilisation record.isSome wifi
  let next := state.map fun old =>
    match record with
    | some r => {old with previousRx := r.rxBytes, previousTx := r.txBytes, initialized := true}
    | none => {old with initialized := false}
  ({wifi with utilisationPercent := utilisation, utilisationAvailable := utilisation.isSome},
    match next with
    | some state => setNetworkState net state states
    | none => states)

def updateNetworksLoop (lib : Library) (counters : Option (List LsmNetworkCounterRecord)) (details : LinkDetails)
    (elapsed : ℚ) (refreshLinkMetadata : Bool) :
    List LsmNetInfo → List LsmLinuxNetworkState → List LsmNetInfo × List LsmLinuxNetworkState
  | [], states => ([], states)
  | net :: rest, states =>
    let updated := updateNetwork lib counters details elapsed refreshLinkMetadata states net
    let later := updateNetworksLoop lib counters details elapsed refreshLinkMetadata rest updated.2
    (updated.1 :: later.1, later.2)

def updateNetworks (lib : Library) (m : LsmMonitor) (counters : Option (List LsmNetworkCounterRecord))
    (details : LinkDetails) (elapsed : ℚ) (refreshLinkMetadata : Bool) : LsmMonitor :=
  let updated := updateNetworksLoop lib counters details elapsed refreshLinkMetadata m.nets m.networkStates
  {m with nets := updated.1, networkStates := updated.2}

/-! ### The collector -/

/-- What a discovery of disks and networks finds. -/
structure Discovery where
  disks : DiskListing
  networks : Option Networks
  addresses : Option (List InterfaceAddress) := none

def lsmStorageInitialise (lib : Library) (m : LsmMonitor) (found : Discovery) : LsmMonitor × Bool :=
  let disks := refreshDisks lib m found.disks
  if !disks.2 then (disks.1, false)
  else
    let networks := refreshNetworks lib disks.1 found.networks
    if !networks.2 then (networks.1, false)
    else (updateInterfaceAddresses networks.1 found.addresses, true)

/-- What a sample reads of the disks and networks. -/
structure Readings where
  diskstats : Option Diskstats
  counters : Option (List LsmNetworkCounterRecord)
  details : LinkDetails

/-- The topology part of an update: the monitor, and whether it is complete. -/
def refreshStorageTopology (lib : Library) (m : LsmMonitor) (found : Discovery) (events : List Received) :
    Option (LsmMonitor × Bool) :=
  let disks := refreshDisks lib m found.disks
  (lsmSourcesNetworkTopologyChanged m.systemSources events).map fun changed =>
    if changed then
      let networks := refreshNetworks lib disks.1 found.networks
      if networks.2 then (updateInterfaceAddresses networks.1 found.addresses, disks.2) else (networks.1, false)
    else disks

def lsmStorageUpdate (lib : Library) (m : LsmMonitor) (elapsed : ℚ) (refreshTopology : Bool) (found : Discovery)
    (events : List Received) (readings : Readings) : Option (LsmMonitor × Bool) :=
  (if refreshTopology then refreshStorageTopology lib m found events else some (m, true)).map fun topology =>
    let accounted := updateDisks lib topology.1 readings.diskstats elapsed
    (updateNetworks lib accounted readings.counters readings.details elapsed refreshTopology, topology.2)

end SystemMonitor.Storage
