import SystemMonitor.Storage.Disks

/-! Which observations a disk's published values come from.

Along a run of refreshes and updates, the baseline of a name is the observation
of the last update, as long as every refresh since then has listed the name with
the same non-empty identity. -/
namespace SystemMonitor.Storage
open Lib

/-! ### The specification -/

/-- The growth of a counter in a second; a counter that fell has none. -/
def perSecond (before now : Nat) (scale elapsed : ℚ) : Option ℚ :=
  if before ≤ now ∧ 0 < elapsed then some (((now - before : Nat) : ℚ) * scale / elapsed) else none

/-- The operations since then and the time they took. -/
def spent (beforeOperations nowOperations beforeMs nowMs : Nat) : Option (Nat × Nat) :=
  if beforeOperations ≤ nowOperations ∧ beforeMs ≤ nowMs then some (nowOperations - beforeOperations, nowMs - beforeMs)
  else none

/-- The observation of a device by one reading: the last line of its name, in a
file that was read to its end. -/
def observed (diskstats : Option Diskstats) (name : Text) : Option LsmDiskCounters :=
  match diskstats with
  | none => none
  | some file =>
    if file.readOk && file.closeOk then lastOf (fun line => if line.1 = name then some line.2 else none) file.lines
    else none

inductive DiskAction where
  | refresh (listing : DiskListing)
  | update (diskstats : Option Diskstats) (elapsed : ℚ)

inductive DiskEvent where
  | refreshed (records : List LsmBlockDeviceRecord)
  | updated (diskstats : Option Diskstats)

/-- Any order of refreshes and updates. -/
def diskMachine (lib : Library) : Machine LsmMonitor DiskAction where
  step m
    | .refresh listing => some (refreshDisks lib m listing).1
    | .update diskstats elapsed => some (updateDisks lib m diskstats elapsed)

/-- A failed refresh is no event. -/
def diskEvents (_ : LsmMonitor) : DiskAction → List DiskEvent
  | .refresh listing =>
    match listing.devices, listing.partitions with
    | some devices, some _ => [.refreshed devices.records]
    | _, _ => []
  | .update diskstats _ => [.updated diskstats]

/-- The last update observed the name so, and all refreshes since have listed it
with this identity. -/
def Continued (log : List DiskEvent) (name : Name) (identity : Identity) (counters : LsmDiskCounters) : Prop :=
  ∃ before diskstats, ∃ refreshes : List (List LsmBlockDeviceRecord), log = before ++ .updated diskstats :: refreshes.map .refreshed ∧
    observed diskstats name.text = some counters ∧
    ∀ records ∈ refreshes, identity.text ≠ [] ∧
      ∃ record ∈ records, record.name = name ∧ record.instanceIdentity = identity

theorem Continued.updated {log : List DiskEvent} {diskstats : Option Diskstats} {name : Name} {identity : Identity}
    {counters : LsmDiskCounters} (h : observed diskstats name.text = some counters) :
    Continued (log ++ [.updated diskstats]) name identity counters :=
  ⟨log, diskstats, [], rfl, h, fun _ h => absurd h List.not_mem_nil⟩

theorem Continued.refreshed {log : List DiskEvent} {name : Name} {identity : Identity} {counters : LsmDiskCounters}
    (h : Continued log name identity counters) {records : List LsmBlockDeviceRecord} (hidentity : identity.text ≠ [])
    {record : LsmBlockDeviceRecord} (hrecord : record ∈ records) (hname : record.name = name)
    (hsame : record.instanceIdentity = identity) : Continued (log ++ [.refreshed records]) name identity counters := by
  obtain ⟨before, diskstats, refreshes, rfl, hobserved, hlisted⟩ := h
  refine ⟨before, diskstats, refreshes ++ [records], ?_, hobserved, ?_⟩
  · rw [List.map_append, List.append_assoc, List.cons_append]
    rfl
  · intro other hother
    rcases List.mem_append.mp hother with hold | hnew
    · exact hlisted other hold
    · rw [List.mem_singleton.mp hnew]
      exact ⟨hidentity, record, hrecord, hname, hsame⟩

/-! ### Accounting -/

/-- A value is published only against an initialised baseline; a baseline comes
only from counters. -/
theorem accounting_cases (lib : Library) (disk : LsmDiskInfo) (state : LsmDiskAccountingState)
    (counters : Option LsmDiskCounters) (elapsed : ℚ) :
    ((lsmDiskAccountingUpdate lib disk state counters elapsed).1.rates = .nan ∨
      ∃ now, counters = some now ∧ state.initialized = true ∧ 0 < elapsed ∧
        (lsmDiskAccountingUpdate lib disk state counters elapsed).1.rates = accountedRates lib state now elapsed) ∧
    ((lsmDiskAccountingUpdate lib disk state counters elapsed).2.initialized = true →
      ∃ now, counters = some now ∧ (lsmDiskAccountingUpdate lib disk state counters elapsed).2 = retained now) := by
  cases counters with
  | none => exact ⟨Or.inl rfl, fun h => absurd h (by simp [lsmDiskAccountingUpdate])⟩
  | some now =>
    refine ⟨?_, fun _ => ⟨now, rfl, rfl⟩⟩
    by_cases huse : state.initialized = true ∧ 0 < elapsed
    · refine Or.inr ⟨now, rfl, huse.1, huse.2, ?_⟩
      simp only [lsmDiskAccountingUpdate]
      rw [if_pos (by simpa using huse)]
    · refine Or.inl ?_
      simp only [lsmDiskAccountingUpdate]
      rw [if_neg (by simpa using huse)]

/-! ### The loop over the disks -/

theorem findDiskState_setAccounting (name other : Name) (accounting : LsmDiskAccountingState)
    (states : List LsmLinuxDiskState) :
    findDiskState (setAccounting name accounting states) other =
      if other = name then (findDiskState states name).map fun state => {state with accounting}
      else findDiskState states other := by
  induction states with
  | nil =>
    split
    · rfl
    · rfl
  | cons state rest ih =>
    unfold findDiskState at ih
    unfold findDiskState setAccounting
    by_cases hname : state.name = name
    · by_cases hother : other = name
      · simp [hname, hother]
      · simp [hname, hother, Ne.symm hother]
    · by_cases hother : other = name
      · subst hother
        simpa [hname] using ih
      · by_cases hfound : state.name = other
        · simp [hother, hfound]
        · simpa [hname, hother, hfound] using ih

/-- The names and identities, in order. -/
def diskIds (disks : List LsmDiskInfo) : List (Name × Identity) := disks.map fun disk => (disk.name, disk.instanceIdentity)
def stateIds (states : List LsmLinuxDiskState) : List (Name × Identity) :=
  states.map fun state => (state.name, state.instanceIdentity)

theorem stateIds_setAccounting (name : Name) (accounting : LsmDiskAccountingState) (states : List LsmLinuxDiskState) :
    stateIds (setAccounting name accounting states) = stateIds states := by
  induction states with
  | nil => rfl
  | cons state rest ih =>
    unfold setAccounting
    split
    · rfl
    · simpa [stateIds] using ih

theorem accountingUpdate_ids (lib : Library) (disk : LsmDiskInfo) (state : LsmDiskAccountingState)
    (counters : Option LsmDiskCounters) (elapsed : ℚ) :
    (lsmDiskAccountingUpdate lib disk state counters elapsed).1.name = disk.name ∧
      (lsmDiskAccountingUpdate lib disk state counters elapsed).1.instanceIdentity = disk.instanceIdentity := by
  cases counters with
  | none => exact ⟨rfl, rfl⟩
  | some now => exact ⟨rfl, rfl⟩

theorem accountDisks_ids (lib : Library) (elapsed : ℚ) (pairs : List (LsmDiskInfo × Option LsmDiskCounters))
    (states : List LsmLinuxDiskState) :
    diskIds (accountDisks lib elapsed pairs states).1 = diskIds (pairs.map Prod.fst) ∧
      stateIds (accountDisks lib elapsed pairs states).2 = stateIds states := by
  induction pairs generalizing states with
  | nil => exact ⟨rfl, rfl⟩
  | cons pair rest ih =>
    obtain ⟨disk, counters⟩ := pair
    unfold accountDisks
    split
    · obtain ⟨hdisks, hstates⟩ := ih states
      refine ⟨?_, hstates⟩
      exact congrArg ((disk.name, disk.instanceIdentity) :: ·) hdisks
    · rename_i state _
      obtain ⟨hdisks, hstates⟩ := ih
        (setAccounting disk.name (lsmDiskAccountingUpdate lib disk state.accounting counters elapsed).2 states)
      refine ⟨?_, by rw [hstates, stateIds_setAccounting]⟩
      obtain ⟨hname, hidentity⟩ := accountingUpdate_ids lib disk state.accounting counters elapsed
      simp only [diskIds, List.map_cons, List.cons.injEq] at hdisks ⊢
      exact ⟨by rw [hname, hidentity], hdisks⟩

/-- The loop leaves the baselines of other names alone. -/
theorem accountDisks_frame (lib : Library) (elapsed : ℚ) {pairs : List (LsmDiskInfo × Option LsmDiskCounters)}
    {name : Name} (hother : ∀ pair ∈ pairs, pair.1.name ≠ name) (states : List LsmLinuxDiskState) :
    findDiskState (accountDisks lib elapsed pairs states).2 name = findDiskState states name := by
  induction pairs generalizing states with
  | nil => rfl
  | cons pair rest ih =>
    have hrest := fun p hp => hother p (List.mem_cons_of_mem _ hp)
    have hne := hother pair (List.mem_cons_self ..)
    obtain ⟨disk, counters⟩ := pair
    unfold accountDisks
    split
    · exact ih hrest states
    · rw [ih hrest, findDiskState_setAccounting, if_neg (Ne.symm hne)]

/-- After the loop, the baseline of a disk's name is from its counters. -/
theorem accountDisks_baseline (lib : Library) (elapsed : ℚ) {pairs : List (LsmDiskInfo × Option LsmDiskCounters)}
    {states : List LsmLinuxDiskState} {name : Name} {state : LsmLinuxDiskState}
    (hlisted : ∃ pair ∈ pairs, pair.1.name = name)
    (hfound : findDiskState (accountDisks lib elapsed pairs states).2 name = some state)
    (hinitialized : state.accounting.initialized = true) :
    ∃ disk now, (disk, some now) ∈ pairs ∧ disk.name = name ∧ state.accounting = retained now := by
  induction pairs generalizing states with
  | nil =>
    obtain ⟨pair, hpair, -⟩ := hlisted
    cases hpair
  | cons pair rest ih =>
    obtain ⟨disk, counters⟩ := pair
    by_cases hlater : ∃ pair ∈ rest, pair.1.name = name
    · -- A later disk of the name decides.
      unfold accountDisks at hfound
      split at hfound
      · obtain ⟨disk, now, hmem, hrest⟩ := ih hlater hfound
        exact ⟨disk, now, List.mem_cons_of_mem _ hmem, hrest⟩
      · obtain ⟨disk, now, hmem, hrest⟩ := ih hlater hfound
        exact ⟨disk, now, List.mem_cons_of_mem _ hmem, hrest⟩
    · have hframe : ∀ pair ∈ rest, pair.1.name ≠ name := fun p hp hname => hlater ⟨p, hp, hname⟩
      have hname : disk.name = name := by
        obtain ⟨pair, hpair, hname⟩ := hlisted
        rcases List.mem_cons.mp hpair with rfl | hrest
        · exact hname
        · exact absurd hname (hframe pair hrest)
      unfold accountDisks at hfound
      split at hfound
      · rename_i hnone
        rw [accountDisks_frame lib elapsed hframe, ← hname, hnone] at hfound
        cases hfound
      · rename_i old hold
        rw [accountDisks_frame lib elapsed hframe, findDiskState_setAccounting, if_pos hname.symm, hold,
          Option.map_some] at hfound
        cases hfound
        obtain ⟨now, rfl, hretained⟩ := (accounting_cases lib disk old.accounting counters elapsed).2 hinitialized
        exact ⟨disk, now, List.mem_cons_self .., hname, hretained⟩

theorem strcmpKey_injective {a b : Text} (h : strcmpKey a = strcmpKey b) : a = b :=
  List.map_injective_iff.mpr (fun _ _ => UInt8.toNat_inj.mp) h

def NameSorted (disks : List LsmDiskInfo) : Prop :=
  disks.Pairwise fun a b => strcmpKey a.name.text ≤ strcmpKey b.name.text

/-- The disk found is the first of its name. -/
theorem findDisk_some {disks : List LsmDiskInfo} (hsorted : NameSorted disks) {name : Text} {i : Nat}
    (h : findDisk disks name = some i) :
    ∃ disk, disks[i]? = some disk ∧ disk.name.text = name ∧
      ∀ j other, j < i → disks[j]? = some other → other.name.text ≠ name := by
  unfold findDisk at h
  simp only at h
  split at h
  · rename_i hhit
    cases h
    obtain ⟨hlt, hkey⟩ := hhit
    rw [List.getElem?_eq_getElem hlt, Option.map_some, Option.getD_some] at hkey
    refine ⟨_, List.getElem?_eq_getElem hlt, strcmpKey_injective hkey, ?_⟩
    intro j other hj hother hname
    have hweak : Sorted (fun i => (disks[i]?.map fun disk => strcmpKey disk.name.text).getD []) disks.length := by
      intro a b hab hb
      simp only [List.getElem?_eq_getElem hb, List.getElem?_eq_getElem (Nat.lt_of_le_of_lt hab hb), Option.map_some,
        Option.getD_some]
      rcases Nat.eq_or_lt_of_le hab with rfl | hlt
      · exact le_refl _
      · exact List.pairwise_iff_getElem.mp hsorted a b _ hb hlt
    have hbelow := lowerBound_first _ (strcmpKey name) hweak hj
    simp only [hother, Option.map_some, Option.getD_some, hname] at hbelow
    exact absurd hbelow (lt_irrefl _)
  · cases h

/-- A disk's counters are the observation of its name, and only the first disk of a name has any. -/
theorem diskSnapshots_some {disks : List LsmDiskInfo} (hsorted : NameSorted disks) {diskstats : Option Diskstats}
    {i : Nat} {disk : LsmDiskInfo} {now : LsmDiskCounters} (hdisk : disks[i]? = some disk)
    (hnow : (diskSnapshots disks diskstats)[i]? = some (some now)) :
    observed diskstats disk.name.text = some now ∧
      ∀ j other, j < i → disks[j]? = some other → other.name ≠ disk.name := by
  have hi : i < disks.length := (List.getElem?_eq_some_iff.mp hdisk).1
  unfold diskSnapshots at hnow
  split at hnow
  · rw [List.getElem?_replicate, if_pos hi] at hnow
    cases hnow
  · rename_i file
    simp only at hnow
    split at hnow
    · rename_i hcomplete
      rw [getElem?_fill _ _ hi] at hnow
      have hlast := Option.some.inj hnow
      obtain ⟨line, -, hline⟩ := exists_of_lastOf hlast
      split at hline
      · rename_i hfound
        obtain ⟨found, hget, hname, hfirst⟩ := findDisk_some hsorted hfound
        rw [hdisk] at hget
        cases hget
        refine ⟨?_, fun j other hj hother hsame => hfirst j other hj hother (by rw [hsame, hname])⟩
        rw [observed, if_pos hcomplete, ← hlast]
        apply lastOf_congr
        intro a _
        -- Exactly the lines of the name go to this place.
        by_cases hsame : a.1 = disk.name.text
        · rw [if_pos hsame, hsame, hname, if_pos hfound]
        · rw [if_neg hsame, if_neg]
          intro ha
          obtain ⟨other, hget, hother, -⟩ := findDisk_some hsorted ha
          rw [hdisk] at hget
          cases hget
          exact hsame hother.symm
      · cases hline
    · rw [List.getElem?_map] at hnow
      obtain ⟨_, -, hnone⟩ := Option.map_eq_some_iff.mp hnow
      cases hnone

theorem length_diskSnapshots (disks : List LsmDiskInfo) (diskstats : Option Diskstats) :
    (diskSnapshots disks diskstats).length = disks.length := by
  unfold diskSnapshots
  split
  · exact List.length_replicate
  · simp only
    split
    · exact length_fill ..
    · rw [List.length_map, length_fill]

theorem zip_snapshots_fst (disks : List LsmDiskInfo) (diskstats : Option Diskstats) :
    (disks.zip (diskSnapshots disks diskstats)).map Prod.fst = disks :=
  List.map_fst_zip (Nat.le_of_eq (length_diskSnapshots disks diskstats).symm)

theorem zip_snapshots_observed {disks : List LsmDiskInfo} (hsorted : NameSorted disks) {diskstats : Option Diskstats}
    {disk : LsmDiskInfo} {now : LsmDiskCounters} (h : (disk, some now) ∈ disks.zip (diskSnapshots disks diskstats)) :
    observed diskstats disk.name.text = some now := by
  obtain ⟨i, hi⟩ := List.mem_iff_getElem?.mp h
  obtain ⟨hdisk, hnow⟩ := List.getElem?_zip_eq_some.mp hi
  exact (diskSnapshots_some hsorted hdisk hnow).1

theorem joinPartition_ids (lib : Library) (statvfs : Path → Option Statvfs) (record : LsmPartitionRecord)
    (disks : List LsmDiskInfo) : diskIds (joinPartition lib statvfs record disks) = diskIds disks := by
  induction disks with
  | nil => rfl
  | cons disk rest ih =>
    unfold joinPartition
    split
    · split
      · rfl
      · have happended : (appendPartition lib statvfs disk record).name = disk.name ∧
            (appendPartition lib statvfs disk record).instanceIdentity = disk.instanceIdentity := by
          unfold appendPartition
          split
          · exact ⟨rfl, rfl⟩
          · simp only
            split
            · exact ⟨rfl, rfl⟩
            · exact ⟨rfl, rfl⟩
        simp only [diskIds, List.map_cons, List.cons.injEq, and_true]
        split
        · exact Prod.ext happended.1 happended.2
        · exact Prod.ext happended.1 happended.2
    · exact congrArg ((disk.name, disk.instanceIdentity) :: ·) ih

/-- Partitions and retained values leave the names and identities alone. -/
theorem found_ids (lib : Library) (statvfs : Path → Option Statvfs) (partitions : List LsmPartitionRecord)
    (old : List LsmDiskInfo) (records : List LsmBlockDeviceRecord) :
    diskIds (updateAllDiskPartitions lib statvfs partitions ((records.map discoveredDisk).map (retainPublished old))) =
      records.map fun record => (record.name, record.instanceIdentity) := by
  have hjoined : ∀ disks, diskIds (partitions.foldl (fun disks record => joinPartition lib statvfs record disks) disks) =
      diskIds disks := by
    induction partitions with
    | nil => exact fun _ => rfl
    | cons record rest ih =>
      intro disks
      rw [List.foldl_cons, ih, joinPartition_ids]
  have hretained : ∀ disk, (retainPublished old disk).name = disk.name ∧
      (retainPublished old disk).instanceIdentity = disk.instanceIdentity := by
    intro disk
    unfold retainPublished
    split
    · exact ⟨rfl, rfl⟩
    · exact ⟨rfl, rfl⟩
  unfold updateAllDiskPartitions diskIds
  rw [List.map_map]
  refine (hjoined _).trans ?_
  simp only [diskIds, List.map_map]
  apply List.map_congr_left
  intro record _
  exact Prod.ext (hretained _).1 (hretained _).2

/-- A carried baseline is one of the same name and the same non-empty identity. -/
theorem reconcileDiskState_initialized {states : List LsmLinuxDiskState} {disk : LsmDiskInfo}
    (h : (reconcileDiskState states disk).accounting.initialized = true) :
    ∃ old, findDiskState states disk.name = some old ∧ disk.instanceIdentity.text ≠ [] ∧
      old.instanceIdentity = disk.instanceIdentity ∧ (reconcileDiskState states disk).accounting = old.accounting := by
  unfold reconcileDiskState at h ⊢
  split at h
  · rename_i old hold
    split at h
    · rename_i hmatch
      rw [if_pos hmatch]
      simp only [diskInstanceMatches, Bool.and_eq_true, decide_eq_true_eq] at hmatch
      exact ⟨old, hold, hmatch.1.2, hmatch.2, rfl⟩
    · cases h
  · cases h

theorem reconcileDiskState_ids (states : List LsmLinuxDiskState) (disk : LsmDiskInfo) :
    (reconcileDiskState states disk).name = disk.name ∧
      (reconcileDiskState states disk).instanceIdentity = disk.instanceIdentity := by
  unfold reconcileDiskState
  split
  · split
    · exact ⟨rfl, rfl⟩
    · exact ⟨rfl, rfl⟩
  · exact ⟨rfl, rfl⟩

/-! ### Runs -/

theorem findDiskState_some {states : List LsmLinuxDiskState} {name : Name} {state : LsmLinuxDiskState}
    (h : findDiskState states name = some state) : state ∈ states ∧ state.name = name := by
  refine ⟨List.mem_of_find?_eq_some h, ?_⟩
  simpa using List.find?_some h

/-- The two arrays are of the same disks, in the order of their names, and a
baseline is the observation that the history continues. -/
structure Baselines (log : List DiskEvent) (m : LsmMonitor) : Prop where
  aligned : stateIds m.diskStates = diskIds m.disks
  sorted : NameSorted m.disks
  continued : ∀ name state, findDiskState m.diskStates name = some state → state.accounting.initialized = true →
    ∃ counters, state.accounting = retained counters ∧ Continued log name state.instanceIdentity counters

theorem nameSorted_of_ids {a b : List LsmDiskInfo} (h : diskIds a = diskIds b) (hb : NameSorted b) : NameSorted a := by
  have hkeys : ∀ l : List LsmDiskInfo, NameSorted l ↔
      (diskIds l).Pairwise fun a b => strcmpKey a.1.text ≤ strcmpKey b.1.text := by
    intro l
    rw [diskIds, List.pairwise_map]
    rfl
  rw [hkeys, h, ← hkeys]
  exact hb

theorem Baselines.refresh {log : List DiskEvent} {m : LsmMonitor} (h : Baselines log m) (lib : Library)
    (listing : DiskListing) :
    Baselines (log ++ diskEvents m (.refresh listing)) (refreshDisks lib m listing).1 := by
  obtain ⟨devices, partitions, statvfs⟩ := listing
  cases devices with
  | none =>
    simp only [refreshDisks, diskEvents, List.append_nil]
    exact h
  | some devices =>
    cases partitions with
    | none =>
      simp only [refreshDisks, diskEvents, List.append_nil]
      exact h
    | some partitions =>
      simp only [refreshDisks, diskEvents]
      generalize hdiscovered : lib.qsortDisks (updateAllDiskPartitions lib statvfs partitions
        ((devices.records.map discoveredDisk).map (retainPublished m.disks))) = discovered
      have hperm : (diskIds discovered).Perm (devices.records.map fun record => (record.name, record.instanceIdentity)) := by
        rw [← hdiscovered, ← found_ids lib statvfs partitions m.disks devices.records]
        exact (lib.qsortDisks_perm _).map _
      have hfits : discovered.length ≤ lsmMaxDisks := by
        have hlength := hperm.length_eq
        rw [diskIds, List.length_map, List.length_map] at hlength
        rw [hlength]
        exact devices.fits
      refine ⟨?_, ?_, ?_⟩
      · simp only [reconcileDiskStates, List.take_of_length_le hfits, stateIds, diskIds, List.map_map]
        apply List.map_congr_left
        intro disk _
        exact Prod.ext (reconcileDiskState_ids _ disk).1 (reconcileDiskState_ids _ disk).2
      · rw [← hdiscovered]
        exact lib.qsortDisks_sorted _
      · intro name state hfound hinitialized
        obtain ⟨hmem, hname⟩ := findDiskState_some hfound
        rw [reconcileDiskStates, List.take_of_length_le hfits] at hmem
        obtain ⟨disk, hdisk, rfl⟩ := List.mem_map.mp hmem
        obtain ⟨hdiskName, hidentity⟩ := reconcileDiskState_ids m.diskStates disk
        obtain ⟨old, hold, hnonempty, hsame, hkept⟩ := reconcileDiskState_initialized hinitialized
        rw [hdiskName] at hname
        rw [hname] at hold
        rw [hkept] at hinitialized
        obtain ⟨counters, hcounters, hcontinued⟩ := h.continued name old hold hinitialized
        rw [hsame] at hcontinued
        have hlisted : (disk.name, disk.instanceIdentity) ∈
            devices.records.map fun record => (record.name, record.instanceIdentity) :=
          hperm.mem_iff.mp (List.mem_map_of_mem hdisk)
        obtain ⟨record, hrecord, hids⟩ := List.mem_map.mp hlisted
        rw [hidentity]
        exact ⟨counters, by rw [hkept, hcounters], hcontinued.refreshed hnonempty hrecord
          ((congrArg Prod.fst hids).trans hname) (congrArg Prod.snd hids)⟩

/-- The baselines after an update. -/
theorem Baselines.next {log : List DiskEvent} {m : LsmMonitor} (h : Baselines log m) (lib : Library)
    (diskstats : Option Diskstats) (elapsed : ℚ) {name : Name} {state : LsmLinuxDiskState}
    (hfound : findDiskState (updateDisks lib m diskstats elapsed).diskStates name = some state)
    (hinitialized : state.accounting.initialized = true) :
    ∃ now, observed diskstats name.text = some now ∧ state.accounting = retained now := by
  have hlisted : ∃ pair ∈ m.disks.zip (diskSnapshots m.disks diskstats), pair.1.name = name := by
    obtain ⟨hmem, hname⟩ := findDiskState_some hfound
    have hid : (state.name, state.instanceIdentity) ∈ diskIds m.disks := by
      rw [← h.aligned, ← (accountDisks_ids lib elapsed (m.disks.zip (diskSnapshots m.disks diskstats)) m.diskStates).2]
      exact List.mem_map_of_mem hmem
    obtain ⟨disk, hdisk, hids⟩ := List.mem_map.mp hid
    rw [← zip_snapshots_fst m.disks diskstats] at hdisk
    obtain ⟨pair, hpair, rfl⟩ := List.mem_map.mp hdisk
    exact ⟨pair, hpair, (congrArg Prod.fst hids).trans hname⟩
  obtain ⟨disk, now, hpair, hname, hretained⟩ := accountDisks_baseline lib elapsed hlisted hfound hinitialized
  refine ⟨now, ?_, hretained⟩
  rw [← hname]
  exact zip_snapshots_observed h.sorted hpair

theorem Baselines.update {log : List DiskEvent} {m : LsmMonitor} (h : Baselines log m) (lib : Library)
    (diskstats : Option Diskstats) (elapsed : ℚ) :
    Baselines (log ++ diskEvents m (.update diskstats elapsed)) (updateDisks lib m diskstats elapsed) := by
  obtain ⟨hdisks, hstates⟩ := accountDisks_ids lib elapsed (m.disks.zip (diskSnapshots m.disks diskstats)) m.diskStates
  rw [zip_snapshots_fst] at hdisks
  refine ⟨?_, nameSorted_of_ids hdisks h.sorted, ?_⟩
  · exact hstates.trans (h.aligned.trans hdisks.symm)
  · intro name state hfound hinitialized
    obtain ⟨now, hobserved, hretained⟩ := h.next lib diskstats elapsed hfound hinitialized
    exact ⟨now, hretained, .updated hobserved⟩

theorem Baselines.run (lib : Library) (sources : Sources.LsmSystemSources) {actions : List DiskAction} {m : LsmMonitor}
    (hrun : (diskMachine lib).run {systemSources := sources} actions = some m) :
    Baselines ((diskMachine lib).trace diskEvents {systemSources := sources} actions) m := by
  have hstart : Baselines [] {systemSources := sources} :=
    ⟨rfl, List.Pairwise.nil, fun _ _ h => absurd h (by simp [findDiskState])⟩
  have h := (diskMachine lib).run_trace_invariant diskEvents (fun _ _ => True) Baselines ?_ hstart
    ((diskMachine lib).admissible_true _ actions) hrun
  · rwa [List.nil_append] at h
  · intro log m a next h _ hstep
    cases a with
    | refresh listing =>
      cases hstep
      exact h.refresh lib listing
    | update diskstats elapsed =>
      cases hstep
      exact h.update lib diskstats elapsed

end SystemMonitor.Storage
