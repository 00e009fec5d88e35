import Mathlib.Data.List.Find
import SystemMonitor.Storage.DiskRates
import SystemMonitor.Storage.Interfaces

/-! Which observations an interface's published rates come from.

Baselines are looked up by identity alone, so they keep interfaces apart as long
as no two interfaces of one listing share an identity. Then, along any run, a
baseline is what the last update observed of that identity under the name it had,
and every listing since has had the identity (`network_rates_unmixed`). Where two
interfaces do share one, the second is measured against the first
(`network_rates_mixed`). -/
namespace SystemMonitor.Storage
open Lib Sources

/-! ### The specification -/

inductive NetworkAction where
  | refresh (sent : Bool) (received : List Received) (directory : Option NetDirectory)
      (details : Name → InterfaceDetails)
  | update (sent : Bool) (received : List Received) (directory : Option NetDirectory) (details : LinkDetails)
      (elapsed : ℚ) (refreshLinkMetadata : Bool)

/-- Any order of refreshes and updates, each with its own dump. -/
def networkMachine (S : LinkStatistics) (lib : Library) : Machine LsmMonitor NetworkAction where
  step m
    | .refresh sent received directory details =>
      (lsmSourcesListNetworksChecked S details m.systemSources sent received directory).map fun listed =>
        (refreshNetworks lib {m with systemSources := listed.1} listed.2).1
    | .update sent received directory details elapsed refreshLinkMetadata =>
      (lsmSourcesReadNetworkCountersChecked S m.systemSources sent received directory).map fun read =>
        updateNetworks lib {m with systemSources := read.1} read.2 details elapsed refreshLinkMetadata

/-- The name and identity of an interface. -/
abbrev NetId := Name × Identity

def netIds (nets : List LsmNetInfo) : List NetId := nets.map fun net => (net.name, net.instanceIdentity)

def networkStateIds (states : List LsmLinuxNetworkState) : List NetId :=
  states.map fun state => (state.name, state.instanceIdentity)

inductive NetworkSighting where
  | listed (ids : List NetId)
  /-- With the interfaces that were looked for. -/
  | counted (nets : List NetId) (counters : Option (List LsmNetworkCounterRecord))

/-- A failed refresh is no event; a failed reading is one that saw nothing. -/
def networkSightings (S : LinkStatistics) (m : LsmMonitor) : NetworkAction → List NetworkSighting
  | .refresh sent received directory details =>
    match lsmSourcesListNetworksChecked S details m.systemSources sent received directory with
    | some (_, some networks) => [.listed (networks.records.map fun record => (record.name, record.instanceIdentity))]
    | _ => []
  | .update sent received directory _ _ _ =>
    match lsmSourcesReadNetworkCountersChecked S m.systemSources sent received directory with
    | some (_, counters) => [.counted (netIds m.nets) counters]
    | none => []

/-- The counters of an interface: received and sent bytes. -/
def observedCounters (counters : Option (List LsmNetworkCounterRecord)) (id : NetId) : Option (Nat × Nat) :=
  counters.bind fun records =>
    (records.find? fun record => decide (record.name = id.1) && decide (record.instanceIdentity = id.2)).map
      fun record => (record.rxBytes, record.txBytes)

/-- The last update, and the listings since. -/
structure SinceUpdate where
  nets : List NetId
  counters : Option (List LsmNetworkCounterRecord)
  listings : List (List NetId)

def sinceUpdate (log : List NetworkSighting) : Option SinceUpdate :=
  log.foldl (fun last sighting =>
    match sighting with
    | .counted nets counters => some ⟨nets, counters, []⟩
    | .listed ids => last.map fun last => {last with listings := last.listings ++ [ids]}) none

/-- The last update observed this of the identity, under the name it then had. -/
def SinceUpdate.Observed (last : SinceUpdate) (identity : Identity) (counters : Nat × Nat) : Prop :=
  ∃ name, (name, identity) ∈ last.nets ∧ observedCounters last.counters (name, identity) = some counters

/-- So it did, and all listings since have the identity. -/
def NetContinued (log : List NetworkSighting) (identity : Identity) (counters : Nat × Nat) : Prop :=
  ∃ last, sinceUpdate log = some last ∧ last.Observed identity counters ∧
    ∀ ids ∈ last.listings, ∃ name, (name, identity) ∈ ids

/-- No two interfaces of a listing are alike. -/
def Unshared (S : LinkStatistics) (m : LsmMonitor) : NetworkAction → Prop
  | .refresh sent received directory details =>
    match lsmSourcesListNetworksChecked S details m.systemSources sent received directory with
    | some (_, some _) => (interfaces S m.systemSources sent received directory).Pairwise fun a b => ¬Alike a b
    | _ => True
  | .update .. => True

instance decidableUnshared (S : LinkStatistics) (m : LsmMonitor) : (a : NetworkAction) → Decidable (Unshared S m a)
  | .refresh sent received directory details =>
    match h : lsmSourcesListNetworksChecked S details m.systemSources sent received directory with
    | some (_, some _) =>
      decidable_of_iff ((interfaces S m.systemSources sent received directory).Pairwise fun a b => ¬Alike a b)
        (by simp only [Unshared, h])
    | some (_, none) => .isTrue (by simp only [Unshared, h])
    | none => .isTrue (by simp only [Unshared, h])
  | .update .. => .isTrue trivial

theorem sinceUpdate_concat (log : List NetworkSighting) (sighting : NetworkSighting) :
    sinceUpdate (log ++ [sighting]) = match sighting with
      | .counted nets counters => some ⟨nets, counters, []⟩
      | .listed ids => (sinceUpdate log).map fun last => {last with listings := last.listings ++ [ids]} := by
  rw [sinceUpdate, List.foldl_append]
  rfl

theorem NetContinued.listed {log : List NetworkSighting} {identity : Identity} {counters : Nat × Nat}
    (h : NetContinued log identity counters) {ids : List NetId} {name : Name} (hlisted : (name, identity) ∈ ids) :
    NetContinued (log ++ [.listed ids]) identity counters := by
  obtain ⟨last, hlast, hobserved, hlistings⟩ := h
  refine ⟨{last with listings := last.listings ++ [ids]}, ?_, hobserved, fun other hother => ?_⟩
  · rw [sinceUpdate_concat, hlast]
    rfl
  · rcases List.mem_append.mp hother with hold | hnew
    · exact hlistings other hold
    · rw [List.mem_singleton.mp hnew]
      exact ⟨name, hlisted⟩

theorem NetContinued.counted {log : List NetworkSighting} {nets : List NetId}
    {counters : Option (List LsmNetworkCounterRecord)} {id : NetId} {now : Nat × Nat} (hid : id ∈ nets)
    (hnow : observedCounters counters id = some now) : NetContinued (log ++ [.counted nets counters]) id.2 now :=
  ⟨⟨nets, counters, []⟩, sinceUpdate_concat .., ⟨id.1, hid, hnow⟩, fun _ h => nomatch h⟩

/-! ### Lookups -/

theorem networkInstanceMatches_iff {a b : Identity} (ha : a.text ≠ []) (hb : b.text ≠ []) (name other : Name) :
    networkInstanceMatches a name b other = true ↔ a = b := by
  rw [networkInstanceMatches, if_pos ⟨ha, hb⟩, decide_eq_true_iff]

/-- Names and identities of a monitor that keep its interfaces apart. -/
structure Apart (ids : List NetId) : Prop where
  distinct : (ids.map Prod.snd).Nodup
  identified : ∀ id ∈ ids, id.2.text ≠ []

section Lookups
variable {states done rest : List LsmLinuxNetworkState} {state : LsmLinuxNetworkState} {net : LsmNetInfo}

/-- The state of an interface is the one of its identity, wherever it is. -/
theorem matches_of_apart (hapart : Apart (networkStateIds (done ++ state :: rest)))
    (hid : (state.name, state.instanceIdentity) = (net.name, net.instanceIdentity)) :
    (∀ old ∈ done, networkStateMatches net old = false) ∧ networkStateMatches net state = true := by
  have hsame : state.instanceIdentity = net.instanceIdentity := (Prod.mk.inj hid).2
  have hmem : ∀ old ∈ done ++ state :: rest, old.instanceIdentity.text ≠ [] :=
    fun old hold => hapart.identified _ (List.mem_map_of_mem hold)
  have hstate := hmem state (List.mem_append_right _ (List.mem_cons_self ..))
  constructor
  · intro old hold
    have hne : old.instanceIdentity ≠ state.instanceIdentity := by
      have hnodup := hapart.distinct
      rw [networkStateIds, List.map_map, List.map_append, List.map_cons, List.nodup_append] at hnodup
      exact hnodup.2.2 _ (List.mem_map_of_mem hold) _ (List.mem_cons_self ..)
    rw [← Bool.not_eq_true, networkStateMatches,
      networkInstanceMatches_iff (hmem old (List.mem_append_left _ hold)) (hsame ▸ hstate), ← hsame]
    exact hne
  · rw [networkStateMatches, networkInstanceMatches_iff hstate (hsame ▸ hstate)]
    exact hsame

theorem findNetworkState_apart (hdone : ∀ old ∈ done, networkStateMatches net old = false)
    (hstate : networkStateMatches net state = true) : findNetworkState (done ++ state :: rest) net = some state := by
  rw [findNetworkState, List.find?_append, List.find?_eq_none.mpr (by simpa using hdone), Option.none_or,
    List.find?_cons_of_pos hstate]

theorem setNetworkState_apart (hdone : ∀ old ∈ done, networkStateMatches net old = false)
    (hstate : networkStateMatches net state = true) (new : LsmLinuxNetworkState) :
    setNetworkState net new (done ++ state :: rest) = done ++ new :: rest := by
  induction done with
  | nil => exact if_pos hstate
  | cons old done ih =>
    have hhead := hdone old (List.mem_cons_self ..)
    rw [List.cons_append, setNetworkState, if_neg (by simp [hhead]),
      ih fun other hother => hdone other (List.mem_cons_of_mem _ hother)]
    rfl

theorem findNetworkCounters_eq (counters : Option (List LsmNetworkCounterRecord))
    (hnamed : ∀ records, counters = some records → ∀ record ∈ records, record.instanceIdentity.text ≠ [])
    (hnet : net.instanceIdentity.text ≠ []) :
    (findNetworkCounters counters net).map (fun record => (record.rxBytes, record.txBytes)) =
      observedCounters counters (net.name, net.instanceIdentity) := by
  cases counters with
  | none => rfl
  | some records =>
    simp only [findNetworkCounters, observedCounters, Option.bind_some]
    congr 1
    apply List.find?_congr
    intro record hrecord
    rw [Bool.eq_iff_iff, Bool.and_eq_true, Bool.and_eq_true, decide_eq_true_iff, decide_eq_true_iff,
      decide_eq_true_iff, networkInstanceMatches_iff hnet (hnamed records rfl record hrecord), eq_comm,
      eq_comm (a := net.instanceIdentity)]

end Lookups

/-! ### The loop over the interfaces -/

/-- What an update leaves of a state. -/
def advance (counters : Option (List LsmNetworkCounterRecord)) (state : LsmLinuxNetworkState) : LsmLinuxNetworkState :=
  match observedCounters counters (state.name, state.instanceIdentity) with
  | some now => {state with previousRx := now.1, previousTx := now.2, initialized := true}
  | none => {state with initialized := false}

theorem advance_id (counters : Option (List LsmNetworkCounterRecord)) (state : LsmLinuxNetworkState) :
    ((advance counters state).name, (advance counters state).instanceIdentity) =
      (state.name, state.instanceIdentity) := by
  unfold advance
  split <;> rfl

/-- What it publishes of an interface. -/
structure Rated (counters : Option (List LsmNetworkCounterRecord)) (elapsed : ℚ) (state : LsmLinuxNetworkState)
    (net : LsmNetInfo) : Prop where
  name : net.name = state.name
  identity : net.instanceIdentity = state.instanceIdentity
  rates : net.rxBytesPerSec = none ∧ net.txBytesPerSec = none ∨
    ∃ now, observedCounters counters (state.name, state.instanceIdentity) = some now ∧ state.initialized = true ∧
      0 < elapsed ∧ net.rxBytesPerSec = perSecond state.previousRx now.1 1 elapsed ∧
      net.txBytesPerSec = perSecond state.previousTx now.2 1 elapsed

section Loop
variable {lib : Library} {counters : Option (List LsmNetworkCounterRecord)} {details : LinkDetails} {elapsed : ℚ}
  {refreshLinkMetadata : Bool}

/-- Names, identity and rates. -/
def figures (net : LsmNetInfo) : NetId × Option ℚ × Option ℚ :=
  ((net.name, net.instanceIdentity), net.rxBytesPerSec, net.txBytesPerSec)

theorem figures_linkDetails (net : LsmNetInfo) : figures (updateNetworkLinkDetails details net) = figures net := by
  unfold updateNetworkLinkDetails
  split
  · rfl
  · rfl

/-- The link details and the utilisation leave the rates alone. -/
theorem figures_updateNetwork (states : List LsmLinuxNetworkState) (net : LsmNetInfo) :
    figures (updateNetwork lib counters details elapsed refreshLinkMetadata states net).1 =
      ((net.name, net.instanceIdentity),
        networkRates lib (findNetworkCounters counters net) (findNetworkState states net) elapsed) := by
  have hif : ∀ {c : Bool} {a b : LsmNetInfo}, figures a = figures b → figures (if c then a else b) = figures b := by
    intro c a b h
    cases c with
    | true => exact h
    | false => rfl
  unfold updateNetwork
  change figures (if _ then _ else _) = _
  refine (hif ?_).trans ((hif (figures_linkDetails _)).trans rfl)
  rfl

theorem updateNetwork_states (states : List LsmLinuxNetworkState) (net : LsmNetInfo) :
    (updateNetwork lib counters details elapsed refreshLinkMetadata states net).2 =
      match findNetworkState states net with
      | none => states
      | some old => setNetworkState net (match findNetworkCounters counters net with
        | some record => {old with previousRx := record.rxBytes, previousTx := record.txBytes, initialized := true}
        | none => {old with initialized := false}) states := by
  simp only [updateNetwork]
  cases findNetworkState states net with
  | none => rfl
  | some old => rfl

theorem rated_updateNetwork {states : List LsmLinuxNetworkState} {state : LsmLinuxNetworkState} {net : LsmNetInfo}
    (hid : (net.name, net.instanceIdentity) = (state.name, state.instanceIdentity))
    (hfound : findNetworkState states net = some state)
    (hobserved : (findNetworkCounters counters net).map (fun record => (record.rxBytes, record.txBytes)) =
      observedCounters counters (net.name, net.instanceIdentity)) :
    Rated counters elapsed state
      (updateNetwork lib counters details elapsed refreshLinkMetadata states net).1 := by
  have hfigures : figures (updateNetwork lib counters details elapsed refreshLinkMetadata states net).1 = _ :=
    figures_updateNetwork states net
  rw [hfound, hid] at hfigures
  rw [hid] at hobserved
  generalize (updateNetwork lib counters details elapsed refreshLinkMetadata states net).1 = updated at hfigures ⊢
  obtain ⟨hids, hrates⟩ := Prod.mk.inj hfigures
  refine ⟨(Prod.mk.inj hids).1, (Prod.mk.inj hids).2, ?_⟩
  obtain ⟨hrx, htx⟩ := Prod.ext_iff.mp hrates
  simp only at hrx htx
  cases hrecord : findNetworkCounters counters net with
  | none =>
    rw [hrecord] at hrx htx
    exact Or.inl ⟨hrx, htx⟩
  | some record =>
    rw [hrecord] at hrx htx hobserved
    by_cases huse : state.initialized = true ∧ 0 < elapsed
    · refine Or.inr ⟨_, hobserved.symm, huse.1, huse.2, ?_, ?_⟩
      · rw [hrx, networkRates, if_pos (by simpa using huse)]
        exact lib.counterRate_eq ..
      · rw [htx, networkRates, if_pos (by simpa using huse)]
        exact lib.counterRate_eq ..
    · rw [networkRates, if_neg (by simpa using huse)] at hrx htx
      exact Or.inl ⟨hrx, htx⟩

/-- The counters are of interfaces with an identity. -/
def Identified (counters : Option (List LsmNetworkCounterRecord)) : Prop :=
  ∀ records, counters = some records → ∀ record ∈ records, record.instanceIdentity.text ≠ []

/-- **The loop**: each interface is measured against the state of its identity, and
each state goes on with what was observed of it. -/
theorem updateNetworksLoop_apart (hcounters : Identified counters) {nets : List LsmNetInfo}
    {done rest : List LsmLinuxNetworkState} (haligned : networkStateIds rest = netIds nets)
    (hapart : Apart (networkStateIds (done ++ rest))) :
    List.Forall₂ (Rated counters elapsed) rest
      (updateNetworksLoop lib counters details elapsed refreshLinkMetadata nets (done ++ rest)).1 ∧
    (updateNetworksLoop lib counters details elapsed refreshLinkMetadata nets (done ++ rest)).2 =
      done ++ rest.map (advance counters) := by
  induction nets generalizing done rest with
  | nil =>
    obtain rfl : rest = [] := List.map_eq_nil_iff.mp haligned
    exact ⟨.nil, rfl⟩
  | cons net nets ih =>
    cases rest with
    | nil => cases haligned
    | cons state rest =>
      obtain ⟨hid, hrest⟩ := List.cons.inj haligned
      obtain ⟨hdone, hstate⟩ := matches_of_apart hapart hid
      have hsame : net.instanceIdentity = state.instanceIdentity := (Prod.mk.inj hid).2.symm
      have hname : net.name = state.name := (Prod.mk.inj hid).1.symm
      have hfound : findNetworkState (done ++ state :: rest) net = some state := findNetworkState_apart hdone hstate
      have hnet : net.instanceIdentity.text ≠ [] := by
        rw [hsame]
        exact hapart.identified _ (List.mem_map_of_mem (List.mem_append_right _ (List.mem_cons_self ..)))
      have hobserved := findNetworkCounters_eq counters hcounters hnet
      have hadvanced : (updateNetwork lib counters details elapsed refreshLinkMetadata (done ++ state :: rest) net).2 =
          done ++ [advance counters state] ++ rest := by
        rw [updateNetwork_states, hfound]
        simp only
        rw [setNetworkState_apart hdone hstate, advance, ← hname, ← hsame, ← hobserved, List.append_assoc]
        cases findNetworkCounters counters net with
        | none => rfl
        | some record => rfl
      have hids : networkStateIds (done ++ [advance counters state] ++ rest) =
          networkStateIds (done ++ state :: rest) := by
        simp only [networkStateIds, List.map_append, List.map_cons, advance_id, List.append_assoc,
          List.singleton_append]
      obtain ⟨hrated, hstates⟩ := ih hrest (hids.symm ▸ hapart)
      unfold updateNetworksLoop
      simp only
      rw [hadvanced]
      refine ⟨.cons ?_ hrated, ?_⟩
      · exact rated_updateNetwork hid.symm hfound hobserved
      · rw [hstates, List.append_assoc]
        rfl

end Loop

/-! ### The baselines along a run -/

/-- Interfaces and states go together, apart from each other, and a baseline is the
last update's. -/
structure NetworkBaselines (log : List NetworkSighting) (m : LsmMonitor) : Prop where
  aligned : networkStateIds m.networkStates = netIds m.nets
  apart : Apart (netIds m.nets)
  continued : ∀ state ∈ m.networkStates, state.initialized = true →
    NetContinued log state.instanceIdentity (state.previousRx, state.previousTx)

theorem retainNet_id (nets : List LsmNetInfo) (net : LsmNetInfo) :
    ((retainNet nets net).name, (retainNet nets net).instanceIdentity) = (net.name, net.instanceIdentity) := by
  unfold retainNet
  split <;> rfl

theorem reconcileNetworkState_id (states : List LsmLinuxNetworkState) (net : LsmNetInfo) :
    ((reconcileNetworkState states net).name, (reconcileNetworkState states net).instanceIdentity) =
      (net.name, net.instanceIdentity) := by
  unfold reconcileNetworkState
  split <;> rfl

/-- A baseline that is kept is that of the same identity. -/
theorem reconcileNetworkState_initialized {states : List LsmLinuxNetworkState} {net : LsmNetInfo}
    (hstates : ∀ state ∈ states, state.instanceIdentity.text ≠ []) (hnet : net.instanceIdentity.text ≠ [])
    (h : (reconcileNetworkState states net).initialized = true) :
    ∃ old ∈ states, old.instanceIdentity = net.instanceIdentity ∧ old.initialized = true ∧
      (reconcileNetworkState states net).previousRx = old.previousRx ∧
      (reconcileNetworkState states net).previousTx = old.previousTx := by
  unfold reconcileNetworkState at h ⊢
  cases hfound : findNetworkState states net with
  | none =>
    rw [hfound] at h
    cases h
  | some old =>
    rw [hfound] at h
    have hold := List.mem_of_find?_eq_some hfound
    have hmatches : networkStateMatches net old = true := List.find?_some hfound
    rw [networkStateMatches, networkInstanceMatches_iff (hstates old hold) hnet] at hmatches
    exact ⟨old, hold, hmatches, h, rfl, rfl⟩

section Runs
variable {S : LinkStatistics} {lib : Library}

/-- The identities of a listing without alike interfaces are apart. -/
theorem apart_of_listing {m : LsmMonitor} {sent : Bool} {received : List Received} {directory : Option NetDirectory}
    {details : Name → InterfaceDetails} {after : LsmSystemSources} {networks : Networks}
    (hlisted : lsmSourcesListNetworksChecked S details m.systemSources sent received directory =
      some (after, some networks))
    (h : Unshared S m (.refresh sent received directory details)) :
    Apart (networks.records.map fun record => (record.name, record.instanceIdentity)) := by
  simp only [Unshared, hlisted] at h
  have hids : (networks.records.map fun record => (record.name, record.instanceIdentity)).map Prod.snd =
      (interfaces S m.systemSources sent received directory).map Interface.identity := by
    rw [records_of_listing hlisted, List.map_map, List.map_map]
    rfl
  constructor
  · rw [hids, List.Nodup, List.pairwise_map]
    refine List.Pairwise.imp_of_mem (fun ha hb hne heq => hne ?_) h
    exact identity_inj (sound_of_interfaces ha) (sound_of_interfaces hb) heq
  · intro id hid
    have hmem : id.2 ∈ (interfaces S m.systemSources sent received directory).map Interface.identity :=
      hids ▸ List.mem_map_of_mem hid
    obtain ⟨interface, hinterface, hsame⟩ := List.mem_map.mp hmem
    rw [← hsame]
    exact identity_ne_nil (sound_of_interfaces hinterface)

theorem NetworkBaselines.refresh {log : List NetworkSighting} {m : LsmMonitor} (h : NetworkBaselines log m)
    {ids : List NetId} (networks : Networks)
    (hids : ids = networks.records.map fun record => (record.name, record.instanceIdentity)) (hapart : Apart ids) :
    NetworkBaselines (log ++ [.listed ids]) (refreshNetworks lib m (some networks)).1 := by
  simp only [refreshNetworks]
  generalize hdiscovered : lib.qsortNets ((networks.records.map discoveredNet).map (retainNet m.nets)) = discovered
  have hperm : (netIds discovered).Perm ids := by
    have hfound : netIds ((networks.records.map discoveredNet).map (retainNet m.nets)) = ids := by
      rw [hids, netIds, List.map_map, List.map_map]
      apply List.map_congr_left
      intro record _
      exact retainNet_id m.nets (discoveredNet record)
    rw [← hdiscovered, ← hfound]
    exact (lib.qsortNets_perm _).map _
  have hfits : discovered.length ≤ lsmMaxNets := by
    have hlength := hperm.length_eq
    rw [hids, netIds, List.length_map, List.length_map] at hlength
    rw [hlength]
    exact networks.fits
  have hnew : Apart (netIds discovered) :=
    ⟨(hperm.map Prod.snd).nodup_iff.mpr hapart.distinct, fun id hid => hapart.identified id (hperm.mem_iff.mp hid)⟩
  have hold : ∀ state ∈ m.networkStates, state.instanceIdentity.text ≠ [] := by
    intro state hstate
    refine h.apart.identified (state.name, state.instanceIdentity) ?_
    rw [← h.aligned]
    exact List.mem_map_of_mem hstate
  refine ⟨?_, hnew, ?_⟩
  · simp only [reconcileNetworkStates, List.take_of_length_le hfits, networkStateIds, netIds, List.map_map]
    apply List.map_congr_left
    intro net _
    exact reconcileNetworkState_id m.networkStates net
  · intro state hstate hinitialized
    simp only [reconcileNetworkStates, List.take_of_length_le hfits] at hstate
    obtain ⟨net, hnet, rfl⟩ := List.mem_map.mp hstate
    have hid := reconcileNetworkState_id m.networkStates net
    have hnetId : (net.name, net.instanceIdentity) ∈ netIds discovered := List.mem_map_of_mem hnet
    obtain ⟨old, holdMem, hsame, holdInitialized, hrx, htx⟩ :=
      reconcileNetworkState_initialized hold (hnew.identified _ hnetId) hinitialized
    have hcontinued := h.continued old holdMem holdInitialized
    rw [(Prod.mk.inj hid).2, hrx, htx]
    rw [hsame] at hcontinued
    exact hcontinued.listed (hperm.mem_iff.mp hnetId)

theorem advance_initialized {counters : Option (List LsmNetworkCounterRecord)} {state : LsmLinuxNetworkState}
    (h : (advance counters state).initialized = true) :
    observedCounters counters (state.name, state.instanceIdentity) =
      some ((advance counters state).previousRx, (advance counters state).previousTx) := by
  unfold advance at h ⊢
  cases hobserved : observedCounters counters (state.name, state.instanceIdentity) with
  | none =>
    rw [hobserved] at h
    cases h
  | some now => rfl

theorem netIds_of_rated {counters : Option (List LsmNetworkCounterRecord)} {elapsed : ℚ}
    {states : List LsmLinuxNetworkState} {nets : List LsmNetInfo}
    (h : List.Forall₂ (Rated counters elapsed) states nets) : netIds nets = networkStateIds states := by
  induction h with
  | nil => rfl
  | cons hrated _ ih =>
    rw [netIds, networkStateIds, List.map_cons, List.map_cons, hrated.name, hrated.identity]
    exact congrArg _ ih

theorem updateNetworks_apart (lib : Library) {m : LsmMonitor} (haligned : networkStateIds m.networkStates = netIds m.nets)
    (hapart : Apart (netIds m.nets)) {counters : Option (List LsmNetworkCounterRecord)} (hcounters : Identified counters)
    (details : LinkDetails) (elapsed : ℚ) (refreshLinkMetadata : Bool) :
    List.Forall₂ (Rated counters elapsed) m.networkStates
      (updateNetworks lib m counters details elapsed refreshLinkMetadata).nets ∧
    (updateNetworks lib m counters details elapsed refreshLinkMetadata).networkStates =
      m.networkStates.map (advance counters) := by
  have hstates : Apart (networkStateIds ([] ++ m.networkStates)) := by
    rw [List.nil_append, haligned]
    exact hapart
  exact updateNetworksLoop_apart hcounters haligned hstates

/-- Each published interface has the state it was measured against. -/
theorem exists_rated {counters : Option (List LsmNetworkCounterRecord)} {elapsed : ℚ}
    {states : List LsmLinuxNetworkState} {nets : List LsmNetInfo}
    (h : List.Forall₂ (Rated counters elapsed) states nets) {net : LsmNetInfo} (hnet : net ∈ nets) :
    ∃ state ∈ states, Rated counters elapsed state net := by
  induction h with
  | nil => cases hnet
  | cons hrated _ ih =>
    rcases List.mem_cons.mp hnet with rfl | hrest
    · exact ⟨_, List.mem_cons_self .., hrated⟩
    · obtain ⟨state, hstate, hrated⟩ := ih hrest
      exact ⟨state, List.mem_cons_of_mem _ hstate, hrated⟩

theorem NetworkBaselines.update {log : List NetworkSighting} {m : LsmMonitor} (h : NetworkBaselines log m)
    {counters : Option (List LsmNetworkCounterRecord)} (hcounters : Identified counters) (details : LinkDetails)
    (elapsed : ℚ) (refreshLinkMetadata : Bool) :
    NetworkBaselines (log ++ [.counted (netIds m.nets) counters])
      (updateNetworks lib m counters details elapsed refreshLinkMetadata) := by
  obtain ⟨hrated, hstates⟩ :=
    updateNetworks_apart lib h.aligned h.apart hcounters details elapsed refreshLinkMetadata
  generalize updateNetworks lib m counters details elapsed refreshLinkMetadata = updated at hrated hstates ⊢
  have hids : netIds updated.nets = netIds m.nets := (netIds_of_rated hrated).trans h.aligned
  refine ⟨?_, hids ▸ h.apart, ?_⟩
  · rw [hstates, hids, ← h.aligned, networkStateIds, networkStateIds, List.map_map]
    apply List.map_congr_left
    intro state _
    exact advance_id counters state
  · intro state hstate hinitialized
    rw [hstates] at hstate
    obtain ⟨old, hold, rfl⟩ := List.mem_map.mp hstate
    have hid := advance_id counters old
    rw [(Prod.mk.inj hid).2]
    have hmem : (old.name, old.instanceIdentity) ∈ netIds m.nets := by
      rw [← h.aligned]
      exact List.mem_map_of_mem hold
    exact NetContinued.counted hmem (advance_initialized hinitialized)

theorem NetworkBaselines.step {log : List NetworkSighting} {m next : LsmMonitor} {a : NetworkAction}
    (h : NetworkBaselines log m) (hunshared : Unshared S m a) (hstep : (networkMachine S lib).step m a = some next) :
    NetworkBaselines (log ++ networkSightings S m a) next := by
  cases a with
  | refresh sent received directory details =>
    obtain ⟨⟨after, networks⟩, hlisted, rfl⟩ := Option.map_eq_some_iff.mp hstep
    have hmoved : NetworkBaselines log {m with systemSources := after} := ⟨h.aligned, h.apart, h.continued⟩
    simp only [networkSightings, hlisted]
    cases networks with
    | none =>
      rw [List.append_nil]
      exact hmoved
    | some networks => exact hmoved.refresh networks rfl (apart_of_listing hlisted hunshared)
  | update sent received directory details elapsed refreshLinkMetadata =>
    obtain ⟨⟨after, counters⟩, hread, rfl⟩ := Option.map_eq_some_iff.mp hstep
    have hmoved : NetworkBaselines log {m with systemSources := after} := ⟨h.aligned, h.apart, h.continued⟩
    have hcounters : Identified counters := by
      intro records hrecords
      subst hrecords
      exact identified_of_reading hread
    simp only [networkSightings, hread]
    exact hmoved.update hcounters details elapsed refreshLinkMetadata

theorem NetworkBaselines.run (sources : LsmSystemSources) {actions : List NetworkAction} {m : LsmMonitor}
    (hunshared : (networkMachine S lib).Admissible (Unshared S) {systemSources := sources} actions)
    (hrun : (networkMachine S lib).run {systemSources := sources} actions = some m) :
    NetworkBaselines ((networkMachine S lib).trace (networkSightings S) {systemSources := sources} actions) m := by
  have hstart : NetworkBaselines [] {systemSources := sources} :=
    ⟨rfl, ⟨List.nodup_nil, fun _ h => absurd h List.not_mem_nil⟩, fun _ h => absurd h List.not_mem_nil⟩
  have h := (networkMachine S lib).run_trace_invariant (networkSightings S) (Unshared S) NetworkBaselines
    (fun _ _ _ _ h hrule hstep => h.step hrule hstep) hstart hunshared hrun
  rwa [List.nil_append] at h

/-- **Network rates never mix interfaces or gaps**, while no two interfaces of a
listing are alike. In every such run, an update publishes for each interface no
rates, or what two observations say: that of its identity by the update before, all
listings in between having had the identity, and that of its name and identity by
this one; a counter that fell has no rate. Where the update before did not observe
the identity there are no rates, and the baseline that is left is this update's
observation or none. -/
theorem network_rates_unmixed (S : LinkStatistics) (lib : Library) (sources : LsmSystemSources)
    {actions : List NetworkAction} {m : LsmMonitor}
    (hunshared : (networkMachine S lib).Admissible (Unshared S) {systemSources := sources} actions)
    (hrun : (networkMachine S lib).run {systemSources := sources} actions = some m)
    {sent : Bool} {received : List Received} {directory : Option NetDirectory} {after : LsmSystemSources}
    {counters : Option (List LsmNetworkCounterRecord)}
    (hread : lsmSourcesReadNetworkCountersChecked S m.systemSources sent received directory = some (after, counters))
    (details : LinkDetails) (elapsed : ℚ) (refreshLinkMetadata : Bool) {next : LsmMonitor}
    (hstep : (networkMachine S lib).step m
      (.update sent received directory details elapsed refreshLinkMetadata) = some next) :
    (∀ net ∈ next.nets, net.rxBytesPerSec = none ∧ net.txBytesPerSec = none ∨
      ∃ before now, NetContinued ((networkMachine S lib).trace (networkSightings S) {systemSources := sources} actions)
          net.instanceIdentity before ∧
        observedCounters counters (net.name, net.instanceIdentity) = some now ∧ 0 < elapsed ∧
        net.rxBytesPerSec = perSecond before.1 now.1 1 elapsed ∧
        net.txBytesPerSec = perSecond before.2 now.2 1 elapsed) ∧
    (∀ net ∈ next.nets, (∀ last,
        sinceUpdate ((networkMachine S lib).trace (networkSightings S) {systemSources := sources} actions) = some last →
        ∀ before, ¬last.Observed net.instanceIdentity before) →
      net.rxBytesPerSec = none ∧ net.txBytesPerSec = none) ∧
    (∀ state ∈ next.networkStates, state.initialized = true →
      observedCounters counters (state.name, state.instanceIdentity) = some (state.previousRx, state.previousTx)) := by
  have h := NetworkBaselines.run sources hunshared hrun
  have hcounters : Identified counters := by
    intro records hrecords
    subst hrecords
    exact identified_of_reading hread
  simp only [networkMachine, hread, Option.map_some, Option.some.injEq] at hstep
  subst hstep
  obtain ⟨hrated, hstates⟩ := updateNetworks_apart lib (m := {m with systemSources := after}) h.aligned h.apart
    hcounters details elapsed refreshLinkMetadata
  have hrates : ∀ net ∈ (updateNetworks lib {m with systemSources := after} counters details elapsed
      refreshLinkMetadata).nets, net.rxBytesPerSec = none ∧ net.txBytesPerSec = none ∨
      ∃ before now, NetContinued ((networkMachine S lib).trace (networkSightings S) {systemSources := sources} actions)
          net.instanceIdentity before ∧
        observedCounters counters (net.name, net.instanceIdentity) = some now ∧ 0 < elapsed ∧
        net.rxBytesPerSec = perSecond before.1 now.1 1 elapsed ∧
        net.txBytesPerSec = perSecond before.2 now.2 1 elapsed := by
    intro net hnet
    obtain ⟨state, hstate, hnetRated⟩ := exists_rated hrated hnet
    rcases hnetRated.rates with hnan | ⟨now, hnow, hinitialized, hpositive, hrx, htx⟩
    · exact Or.inl hnan
    · rw [hnetRated.name, hnetRated.identity]
      exact Or.inr ⟨_, now, h.continued state hstate hinitialized, hnow, hpositive, hrx, htx⟩
  refine ⟨hrates, fun net hnet hmissed => ?_, fun state hstate hinitialized => ?_⟩
  · rcases hrates net hnet with hnan | ⟨before, now, ⟨last, hlast, hobserved, -⟩, -⟩
    · exact hnan
    · exact absurd hobserved (hmissed last hlast before)
  · rw [hstates] at hstate
    obtain ⟨old, hold, rfl⟩ := List.mem_map.mp hstate
    have hid := advance_id counters old
    rw [hid]
    exact advance_initialized hinitialized

/-- No run is stuck: every dump is read within its datagrams. -/
theorem network_run_total (S : LinkStatistics) (lib : Library) (m : LsmMonitor) (actions : List NetworkAction) :
    ∃ next, (networkMachine S lib).run m actions = some next := by
  induction actions generalizing m with
  | nil => exact ⟨m, rfl⟩
  | cons a rest ih =>
    have hstep : ∃ next, (networkMachine S lib).step m a = some next := by
      cases a with
      | refresh sent received directory details =>
        obtain ⟨listed, hlisted⟩ := exists_listing S details m.systemSources sent received directory
        exact ⟨_, congrArg (Option.map _) hlisted⟩
      | update sent received directory details elapsed refreshLinkMetadata =>
        obtain ⟨read, hread⟩ := exists_reading S m.systemSources sent received directory
        exact ⟨_, congrArg (Option.map _) hread⟩
    obtain ⟨next, hnext⟩ := hstep
    obtain ⟨last, hlast⟩ := ih next
    exact ⟨last, by rw [Machine.run, hnext, Option.bind_some, hlast]⟩

end Runs

/-! ### Two interfaces with one address -/

def someStatistics : LinkStatistics := ⟨96, 200, by decide, by decide⟩

/-- Without rtnetlink. -/
def sysfsSources : LsmSystemSources := ⟨-1, -1, 0⟩

def plainDetails (_ : Name) : InterfaceDetails := ⟨.empty, .empty, false⟩
def noLinkDetails : LinkDetails := ⟨fun _ => none, fun _ => none, fun _ => 0⟩
def sharedAddress : Chars 32 := ⟨ascii "52:54:00:12:34:56", by decide, by decide⟩

/-- An interface and a VLAN on it, which has its address. -/
def ethernet (ifindex : Option Nat) (rxBytes : Nat) : SysfsInterface where
  name := ⟨ascii "eth0", by decide, by decide⟩
  named := by decide
  address := sharedAddress
  ifindex := ifindex
  rxBytes := some rxBytes
  txBytes := some 0

def vlan (ifindex : Option Nat) (rxBytes : Nat) : SysfsInterface :=
  {ethernet ifindex rxBytes with name := ⟨ascii "eth0.5", by decide, by decide⟩, named := by decide}

def listing (entries : List SysfsInterface) : NetworkAction := .refresh true [] (some ⟨entries, true, true⟩) plainDetails
def reading (entries : List SysfsInterface) : NetworkAction :=
  .update true [] (some ⟨entries, true, true⟩) noLinkDetails 1 false

/-- With an index each, both are measured against themselves. -/
theorem network_rates_unmixed_indexed :
    ∃ m next, ∃ net : LsmNetInfo, (networkMachine someStatistics .documented).run {systemSources := sysfsSources}
        [listing [ethernet (some 2) 0, vlan (some 3) 0], reading [ethernet (some 2) 1000, vlan (some 3) 3000]] = some m ∧
      (networkMachine someStatistics .documented).step m (reading [ethernet (some 2) 1500, vlan (some 3) 3100]) =
        some next ∧
      net ∈ next.nets ∧ net.rxBytesPerSec = some 500 ∧
      ∃ before now : Nat × Nat, NetContinued
          ((networkMachine someStatistics .documented).trace (networkSightings someStatistics)
            {systemSources := sysfsSources} [listing [ethernet (some 2) 0, vlan (some 3) 0],
              reading [ethernet (some 2) 1000, vlan (some 3) 3000]]) net.instanceIdentity before ∧
        net.rxBytesPerSec = perSecond before.1 now.1 1 1 := by
  obtain ⟨m, hrun, hrates⟩ := (networkMachine someStatistics .documented).run_decided
    (p := fun m => ((networkMachine someStatistics .documented).step m
      (reading [ethernet (some 2) 1500, vlan (some 3) 3100])).map (fun next => next.nets.map LsmNetInfo.rxBytesPerSec) =
        some [some 500, some 100])
    (show ((networkMachine someStatistics .documented).run {systemSources := sysfsSources}
      [listing [ethernet (some 2) 0, vlan (some 3) 0], reading [ethernet (some 2) 1000, vlan (some 3) 3000]]).map _ =
        some true by decide +kernel)
  obtain ⟨next, hnext, hrates⟩ := Option.map_eq_some_iff.mp hrates
  obtain ⟨net, hnet, hrate⟩ : ∃ net ∈ next.nets, net.rxBytesPerSec = some 500 := by
    apply List.mem_map.mp
    rw [hrates]
    exact List.mem_cons_self ..
  obtain ⟨⟨after, counters⟩, hread⟩ := exists_reading someStatistics m.systemSources true []
    (some ⟨[ethernet (some 2) 1500, vlan (some 3) 3100], true, true⟩)
  refine ⟨m, next, net, hrun, hnext, hnet, hrate, ?_⟩
  rcases (network_rates_unmixed someStatistics .documented sysfsSources (by decide) hrun hread noLinkDetails 1
    false hnext).1 net hnet with hnan | ⟨before, now, hcontinued, -, -, hrx, -⟩
  · rw [hnan.1] at hrate
    cases hrate
  · exact ⟨before, now, hcontinued, hrx⟩

/-- **Without, the second is measured against the first**, and that at the first
update of all. -/
theorem network_rates_mixed :
    sinceUpdate ((networkMachine someStatistics .documented).trace (networkSightings someStatistics)
        {systemSources := sysfsSources} [listing [ethernet none 0, vlan none 0]]) = none ∧
      ∃ m, (networkMachine someStatistics .documented).run {systemSources := sysfsSources}
          [listing [ethernet none 0, vlan none 0], reading [ethernet none 1000, vlan none 3000]] = some m ∧
        m.nets.map LsmNetInfo.rxBytesPerSec = [none, some 2000] := by
  refine ⟨rfl, (networkMachine someStatistics .documented).run_decided
    (p := fun m => m.nets.map LsmNetInfo.rxBytesPerSec = [none, some 2000]) ?_⟩
  decide +kernel

end SystemMonitor.Storage
