import SystemMonitor.Storage.Networks

/-! Whether a change of the networks is kept until it has been looked at.

Reading the event socket consumes the event. The refresh that follows may fail,
and the initial enumeration may fail or not be reached after the disks; nothing
remembers either, so the next update finds no event and reports the topology as
complete (`network_changes_lost`). While no enumeration of
the networks fails, or where there is no event socket to consume from, nothing is
lost (`network_changes_kept`). -/
namespace SystemMonitor.Storage
open Lib Sources

inductive StorageAction where
  | initialise (found : Discovery)
  | update (elapsed : ℚ) (refreshTopology : Bool) (found : Discovery) (events : List Received) (readings : Readings)

def storageMachine (lib : Library) : Machine LsmMonitor StorageAction where
  step m
    | .initialise found => some (lsmStorageInitialise lib m found).1
    | .update elapsed refreshTopology found events readings =>
      (lsmStorageUpdate lib m elapsed refreshTopology found events readings).map Prod.fst

/-- What a call did about the networks. -/
inductive NetworkEvent where
  /-- Whether the networks were listed. -/
  | initialised (listed : Bool)
  /-- An update that refreshes topology: whether a change was drained, so that it
  performed a network refresh, whether that succeeded, and what it reported. -/
  | refreshed (changed listed complete : Bool)
  deriving DecidableEq

def networkEvents (lib : Library) (m : LsmMonitor) : StorageAction → List NetworkEvent
  | .initialise found => [.initialised ((refreshDisks lib m found.disks).2 && found.networks.isSome)]
  | .update elapsed refreshTopology found events readings =>
    if refreshTopology then
      match lsmSourcesNetworkTopologyChanged m.systemSources events,
          lsmStorageUpdate lib m elapsed refreshTopology found events readings with
      | some changed, some updated => [.refreshed changed (changed && found.networks.isSome) updated.2]
      | _, _ => []
    else []

/-- A change or a failed first listing that no listing has followed. -/
def owedAfter (owed : Bool) : NetworkEvent → Bool
  | .initialised listed => !listed
  | .refreshed changed listed _ => !listed && (changed || owed)

def owed (log : List NetworkEvent) : Bool := log.foldl owedAfter false

/-- Each update that refreshes topology while one is owed performs a network
refresh or reports the topology as incomplete. -/
def ChangesKept (log : List NetworkEvent) : Prop :=
  ∀ before changed listed complete after, log = before ++ .refreshed changed listed complete :: after →
    owed before = true → changed = true ∨ complete = false

theorem ChangesKept.nil : ChangesKept [] := by
  intro before changed listed complete after h
  cases before with
  | nil => cases h
  | cons e rest => cases h

theorem ChangesKept.concat {log : List NetworkEvent} (h : ChangesKept log) {e : NetworkEvent}
    (he : ∀ changed listed complete, e = .refreshed changed listed complete → owed log = true →
      changed = true ∨ complete = false) : ChangesKept (log ++ [e]) := by
  intro before changed listed complete after heq howed
  rcases List.append_eq_append_iff.mp heq with ⟨mid, hbefore, hmid⟩ | ⟨mid, hlog, hmid⟩
  · cases mid with
    | nil =>
      rw [List.append_nil] at hbefore
      cases hmid
      rw [hbefore] at howed
      exact he changed listed complete rfl howed
    | cons x rest =>
      have hlength := congrArg List.length hmid
      simp at hlength
  · cases mid with
    | nil =>
      rw [List.append_nil] at hlog
      cases hmid
      rw [← hlog] at howed
      exact he changed listed complete rfl howed
    | cons x rest =>
      obtain ⟨rfl, hrest⟩ := List.cons.inj hmid
      exact h before changed listed complete rest hlog howed

/-- No event socket, or no request socket: every refresh lists the networks. -/
def Unwatched (m : LsmMonitor) : Prop := m.systemSources.networkEventFd < 0 ∨ m.systemSources.networkRequestFd < 0

/-- The sockets are not there, or the networks can be listed and, at first, the
disks before them. -/
def Listable (m : LsmMonitor) : StorageAction → Prop
  | .initialise found => Unwatched m ∨
      found.disks.devices ≠ none ∧ found.disks.partitions ≠ none ∧ found.networks ≠ none
  | .update _ _ found _ _ => Unwatched m ∨ found.networks ≠ none

/-! ### The calls -/

section Calls
variable (lib : Library) (m : LsmMonitor)

theorem refreshDisks_true {listing : DiskListing} (hdevices : listing.devices ≠ none)
    (hpartitions : listing.partitions ≠ none) : (refreshDisks lib m listing).2 = true := by
  obtain ⟨devices, hsome⟩ := Option.ne_none_iff_exists'.mp hdevices
  obtain ⟨partitions, hparts⟩ := Option.ne_none_iff_exists'.mp hpartitions
  simp only [refreshDisks, hsome, hparts]

theorem refreshDisks_sources (listing : DiskListing) :
    (refreshDisks lib m listing).1.systemSources = m.systemSources := by
  unfold refreshDisks
  split
  · rfl
  · split
    · rfl
    · rfl

theorem refreshNetworks_sources (networks : Option Networks) :
    (refreshNetworks lib m networks).1.systemSources = m.systemSources := by
  cases networks with
  | none => rfl
  | some networks => rfl

theorem refreshNetworks_returned (networks : Option Networks) :
    (refreshNetworks lib m networks).2 = networks.isSome := by
  cases networks with
  | none => rfl
  | some networks => rfl

theorem updateInterfaceAddresses_sources (addresses : Option (List InterfaceAddress)) :
    (updateInterfaceAddresses m addresses).systemSources = m.systemSources := by
  cases addresses with
  | none => rfl
  | some addresses => rfl

theorem lsmStorageInitialise_sources (found : Discovery) :
    (lsmStorageInitialise lib m found).1.systemSources = m.systemSources := by
  unfold lsmStorageInitialise
  simp only
  split
  · exact refreshDisks_sources lib m found.disks
  · split
    · rw [refreshNetworks_sources, refreshDisks_sources]
    · rw [updateInterfaceAddresses_sources, refreshNetworks_sources, refreshDisks_sources]

/-- One event message, by its own bytes. -/
def eventStep (scan : EventScan) (message : List UInt8) : EventScan × Bool :=
  let type := uintOf message 4 2
  if type = rtmNewlink ∨ type = rtmDellink ∨ type = rtmNewaddr ∨ type = rtmDeladdr then
    ({scan with changed := true}, false)
  else if type = nlmsgError ∨ type = nlmsgOverrun then ({scan with returned := true}, true)
  else (scan, false)

/-- Reading the events ends, whatever they are. -/
theorem topologyReceive_total (changed : Bool) (received : List Received) :
    ∃ result, topologyReceive changed received = some result := by
  induction received generalizing changed with
  | nil => exact ⟨changed, rfl⟩
  | cons outcome rest ih =>
    cases outcome with
    | failed errno =>
      unfold topologyReceive
      split
      · exact ih changed
      · split
        · exact ⟨changed, rfl⟩
        · exact ⟨true, rfl⟩
    | datagram bytes truncated =>
      have hbody : ∀ (scan : EventScan) i n, i + n ≤ bytes.length → messages.header ≤ n →
          topologyMessage bytes scan i n = some (eventStep scan ((bytes.drop i).take n)) := by
        intro scan i n hin hheader
        have hlong : 16 ≤ n := hheader
        rw [topologyMessage, uintAt_record hin (by omega)]
        rfl
      obtain ⟨remaining, hwalk, -⟩ := messages.walk_eq (f := eventStep) hbody (bytes.length + 1) ⟨changed, false⟩ 0
        bytes.length (by omega) (by omega)
      unfold topologyReceive
      split
      · exact ⟨changed, rfl⟩
      · split
        · exact ⟨true, rfl⟩
        · rw [hwalk, Option.bind_some]
          split
          · exact ⟨true, rfl⟩
          · split
            · exact ⟨true, rfl⟩
            · exact ih _

theorem topologyChanged_total (sources : LsmSystemSources) (events : List Received) :
    ∃ changed, lsmSourcesNetworkTopologyChanged sources events = some changed := by
  unfold lsmSourcesNetworkTopologyChanged
  split
  · exact ⟨true, rfl⟩
  · exact topologyReceive_total false events

/-- An update that refreshes topology: it lists the networks if a change was
drained, and is complete if all that it listed could be listed. -/
theorem update_refreshing (elapsed : ℚ) (found : Discovery) (readings : Readings) {events : List Received}
    {changed : Bool} (hchanged : lsmSourcesNetworkTopologyChanged m.systemSources events = some changed) :
    ∃ next, lsmStorageUpdate lib m elapsed true found events readings =
        some (next, (refreshDisks lib m found.disks).2 && (!changed || found.networks.isSome)) ∧
      next.systemSources = m.systemSources := by
  have htopology : ∃ refreshed, refreshStorageTopology lib m found events =
        some (refreshed, (refreshDisks lib m found.disks).2 && (!changed || found.networks.isSome)) ∧
      refreshed.systemSources = m.systemSources := by
    simp only [refreshStorageTopology, hchanged, Option.map_some]
    cases changed with
    | false =>
      refine ⟨(refreshDisks lib m found.disks).1, ?_, refreshDisks_sources lib m found.disks⟩
      rw [Bool.not_false, Bool.true_or, Bool.and_true]
      rfl
    | true =>
      rw [if_pos rfl, refreshNetworks_returned, Bool.not_true, Bool.false_or]
      cases found.networks with
      | none =>
        refine ⟨_, ?_, (refreshNetworks_sources lib _ none).trans (refreshDisks_sources lib m found.disks)⟩
        rw [Option.isSome_none, Bool.and_false]
        rfl
      | some networks =>
        refine ⟨_, ?_, (updateInterfaceAddresses_sources _ found.addresses).trans
          ((refreshNetworks_sources lib _ (some networks)).trans (refreshDisks_sources lib m found.disks))⟩
        rw [Option.isSome_some, Bool.and_true]
        rfl
  obtain ⟨refreshed, hrefreshed, hsources⟩ := htopology
  rw [lsmStorageUpdate, if_pos rfl, hrefreshed, Option.map_some]
  exact ⟨_, rfl, hsources⟩

end Calls

/-! ### Runs -/

theorem owed_concat (log : List NetworkEvent) (e : NetworkEvent) : owed (log ++ [e]) = owedAfter (owed log) e := by
  rw [owed, List.foldl_append]
  rfl

/-- Nothing is lost, and nothing is owed where something could be. -/
structure Watched (sources : LsmSystemSources) (log : List NetworkEvent) (m : LsmMonitor) : Prop where
  kept : ChangesKept log
  settled : Unwatched m ∨ owed log = false
  sources : m.systemSources = sources

theorem unwatched_of_sources {m next : LsmMonitor} (h : next.systemSources = m.systemSources) (hm : Unwatched m) :
    Unwatched next := by
  unfold Unwatched
  rw [h]
  exact hm

theorem Watched.step {sources : LsmSystemSources} {log : List NetworkEvent} {m next : LsmMonitor}
    (h : Watched sources log m) (lib : Library) {a : StorageAction} (hlistable : Listable m a)
    (hstep : (storageMachine lib).step m a = some next) :
    Watched sources (log ++ networkEvents lib m a) next := by
  cases a with
  | initialise found =>
    cases hstep
    have hsources := lsmStorageInitialise_sources lib m found
    refine ⟨h.kept.concat (fun _ _ _ heq => absurd heq (by simp)), ?_, hsources.trans h.sources⟩
    rcases hlistable with hunwatched | ⟨hdevices, hpartitions, hnetworks⟩
    · exact Or.inl (unwatched_of_sources hsources hunwatched)
    · refine Or.inr ?_
      rw [networkEvents, owed_concat, refreshDisks_true lib m hdevices hpartitions, Option.isSome_iff_ne_none.mpr hnetworks]
      rfl
  | update elapsed refreshTopology found events readings =>
    cases refreshTopology with
    | false =>
      cases hstep
      simp only [networkEvents, Bool.false_eq_true, if_false, List.append_nil]
      exact ⟨h.kept, h.settled, h.sources⟩
    | true =>
      obtain ⟨changed, hchanged⟩ := topologyChanged_total m.systemSources events
      obtain ⟨updated, hupdated, hsources⟩ := update_refreshing lib m elapsed found readings hchanged
      simp only [storageMachine, hupdated, Option.map_some, Option.some.injEq] at hstep
      subst hstep
      simp only [networkEvents, if_true, hchanged, hupdated]
      have hforced : Unwatched m → changed = true := by
        intro hunwatched
        unfold Unwatched at hunwatched
        rw [lsmSourcesNetworkTopologyChanged, if_pos hunwatched] at hchanged
        exact (Option.some.inj hchanged).symm
      refine ⟨h.kept.concat ?_, ?_, hsources.trans h.sources⟩
      · intro c l complete heq howed
        cases heq
        rcases h.settled with hunwatched | hsettled
        · exact Or.inl (hforced hunwatched)
        · rw [hsettled] at howed
          cases howed
      · rcases h.settled with hunwatched | hsettled
        · exact Or.inl (unwatched_of_sources hsources hunwatched)
        · rcases hlistable with hunwatched | hnetworks
          · exact Or.inl (unwatched_of_sources hsources hunwatched)
          · refine Or.inr ?_
            rw [owed_concat, hsettled, Option.isSome_iff_ne_none.mpr hnetworks]
            cases changed <;> rfl

/-- **Changes are kept while the networks can be listed.** And only then: after
any run that owes a listing, an update that finds no new event and can list the
disks neither lists the networks nor reports the topology as incomplete. -/
theorem network_changes_kept (lib : Library) (sources : LsmSystemSources) :
    (∀ actions m, (storageMachine lib).Admissible Listable {systemSources := sources} actions →
      (storageMachine lib).run {systemSources := sources} actions = some m →
      ChangesKept ((storageMachine lib).trace (networkEvents lib) {systemSources := sources} actions)) ∧
    (∀ actions m, (storageMachine lib).run {systemSources := sources} actions = some m → ¬Unwatched m →
      owed ((storageMachine lib).trace (networkEvents lib) {systemSources := sources} actions) = true →
      ∀ elapsed found readings, found.disks.devices ≠ none → found.disks.partitions ≠ none →
        ∃ next, (storageMachine lib).run {systemSources := sources}
            (actions ++ [.update elapsed true found [] readings]) = some next ∧
          ¬ChangesKept ((storageMachine lib).trace (networkEvents lib) {systemSources := sources}
            (actions ++ [.update elapsed true found [] readings]))) := by
  refine ⟨?_, ?_⟩
  · intro actions m hlistable hrun
    have hstart : Watched sources [] {systemSources := sources} := ⟨.nil, Or.inr rfl, rfl⟩
    have h := (storageMachine lib).run_trace_invariant (networkEvents lib) Listable (Watched sources)
      (fun _ _ _ _ h hlistable hstep => h.step lib hlistable hstep) hstart hlistable hrun
    rw [List.nil_append] at h
    exact h.kept
  · intro actions m hrun hwatched howed elapsed found readings hdevices hpartitions
    have hquiet : lsmSourcesNetworkTopologyChanged m.systemSources [] = some false := by
      unfold Unwatched at hwatched
      rw [lsmSourcesNetworkTopologyChanged, if_neg hwatched]
      rfl
    obtain ⟨next, hupdated, -⟩ := update_refreshing lib m elapsed found readings hquiet
    rw [refreshDisks_true lib m hdevices hpartitions] at hupdated
    refine ⟨next, ?_, ?_⟩
    · rw [(storageMachine lib).run_append, hrun]
      simp only [Option.bind_some, Machine.run, storageMachine, hupdated, Option.map_some]
    · rw [(storageMachine lib).trace_append (networkEvents lib) hrun]
      intro h
      have hevent : (storageMachine lib).trace (networkEvents lib) m [.update elapsed true found [] readings] =
          [.refreshed false false true] := by
        simp [Machine.trace, networkEvents, storageMachine, hquiet, hupdated]
      rw [hevent] at h
      rcases h _ false false true [] rfl howed with hchanged | hincomplete
      · cases hchanged
      · cases hincomplete

/-! ### Losing a change -/

/-- No disks, and these networks. -/
def noDisks (networks : Option Networks) : Discovery where
  disks := {devices := some ⟨[], by decide⟩, partitions := some []}
  networks := networks

def noNetworks : Networks := ⟨[], by decide⟩

def noReadings : Readings := ⟨none, none, ⟨fun _ => none, fun _ => none, fun _ => 0⟩⟩

/-- An `RTM_NEWLINK` event. -/
def linkEvent : Received := .datagram [16, 0, 0, 0, 16, 0, 0, 0, 0, 0, 0, 0, 0, 0, 0, 0] false

def watchedSources : LsmSystemSources := ⟨3, 4, 0⟩

/-- A change that is drained, and the networks can be listed. -/
def changeListed : List StorageAction :=
  [.initialise (noDisks (some noNetworks)), .update 1 true (noDisks (some noNetworks)) [linkEvent] noReadings,
    .update 1 true (noDisks (some noNetworks)) [] noReadings]

theorem network_changes_kept_listed :
    ∃ m, (storageMachine .documented).run {systemSources := watchedSources} changeListed = some m ∧
      ChangesKept ((storageMachine .documented).trace (networkEvents .documented) {systemSources := watchedSources}
        changeListed) := by
  obtain ⟨m, hrun, -⟩ := (storageMachine .documented).run_decided (p := fun _ => True)
    (show ((storageMachine .documented).run {systemSources := watchedSources} changeListed).map _ = some true by
      decide)
  refine ⟨m, hrun, (network_changes_kept .documented watchedSources).1 changeListed m ?_ hrun⟩
  apply (storageMachine .documented).admissible_of_forall
  intro a ha s
  simp only [changeListed, List.mem_cons, List.not_mem_nil, or_false] at ha
  rcases ha with rfl | rfl | rfl
  · exact Or.inr ⟨by simp [noDisks], by simp [noDisks], by simp [noDisks]⟩
  · exact Or.inr (by simp [noDisks])
  · exact Or.inr (by simp [noDisks])

/-- A drained change whose listing fails. -/
def changeUnlisted : List StorageAction :=
  [.initialise (noDisks (some noNetworks)), .update 1 true (noDisks none) [linkEvent] noReadings,
    .update 1 true (noDisks (some noNetworks)) [] noReadings]

/-- A first listing that is not reached, since the disks cannot be listed. -/
def initialUnlisted : List StorageAction :=
  [.initialise {disks := {devices := none, partitions := none}, networks := some noNetworks},
    .update 1 true (noDisks (some noNetworks)) [] noReadings]

theorem network_changes_lost :
    ¬ChangesKept ((storageMachine .documented).trace (networkEvents .documented) {systemSources := watchedSources}
      changeUnlisted) ∧
    ¬ChangesKept ((storageMachine .documented).trace (networkEvents .documented) {systemSources := watchedSources}
      initialUnlisted) := by
  have hchange : (storageMachine .documented).trace (networkEvents .documented) {systemSources := watchedSources}
      changeUnlisted = [.initialised true, .refreshed true false false, .refreshed false false true] := by
    decide
  have hinitial : (storageMachine .documented).trace (networkEvents .documented) {systemSources := watchedSources}
      initialUnlisted = [.initialised false, .refreshed false false true] := by
    decide
  rw [hchange, hinitial]
  refine ⟨?_, ?_⟩
  · intro h
    rcases h [.initialised true, .refreshed true false false] false false true [] rfl rfl with hrefreshed | hreported
    · cases hrefreshed
    · cases hreported
  · intro h
    rcases h [.initialised false] false false true [] rfl rfl with hrefreshed | hreported
    · cases hrefreshed
    · cases hreported

end SystemMonitor.Storage
