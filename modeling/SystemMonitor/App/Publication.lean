import SystemMonitor.App.Workspace

/-! What becomes of the snapshots that are taken.

Snapshots are taken in the order of their scans, and every one is ingested and published
once. What has been published and what the dialogs still hold, the innermost first, are
together the snapshots taken, and they are in order exactly when none was taken while a
dialog was open (`snapshots_published`). -/
namespace SystemMonitor.App
open Lib Process

def takenOf (log : List Event) : List Snapshot :=
  log.filterMap fun
    | .taken snapshot _ => some snapshot
    | _ => none

def publishedOf (log : List Event) : List Snapshot :=
  log.filterMap fun
    | .published snapshot => some snapshot
    | _ => none

/-- No snapshot is taken while another is held. -/
def Undisturbed (log : List Event) : Prop := ∀ snapshot held, .taken snapshot held ∈ log → held = 0

/-- In the order of the scans. -/
def InOrder (snapshots : List Snapshot) : Prop := (snapshots.map (·.scan)).Pairwise (· < ·)

/-- The snapshots of the dialogs. -/
def heldBy (s : State) : List Snapshot := s.dialogs.map (·.snapshot)

theorem takenOf_append (a b : List Event) : takenOf (a ++ b) = takenOf a ++ takenOf b := List.filterMap_append

theorem publishedOf_append (a b : List Event) : publishedOf (a ++ b) = publishedOf a ++ publishedOf b :=
  List.filterMap_append

theorem undisturbed_append {a b : List Event} : Undisturbed (a ++ b) ↔ Undisturbed a ∧ Undisturbed b := by
  constructor
  · intro h
    exact ⟨fun snapshot held hmem => h snapshot held (List.mem_append_left _ hmem),
      fun snapshot held hmem => h snapshot held (List.mem_append_right _ hmem)⟩
  · intro h snapshot held hmem
    rcases List.mem_append.mp hmem with hmem | hmem
    · exact h.1 snapshot held hmem
    · exact h.2 snapshot held hmem

/-! ### What the recorder adds to the log -/

/-- Nothing is taken, published or started. -/
def Recorded (seen : List Event) : Prop := ∀ e ∈ seen, ∃ k node, e = .accepted k node

theorem lsmProcessRecordAppend_recorded (records : Recordings) (timestamp : Int) (address : Option Nat)
    (process : LsmProcessInfo) : Recorded (lsmProcessRecordAppend records timestamp address process).2.1 := by
  unfold lsmProcessRecordAppend
  split
  · exact nofun
  · split
    · exact nofun
    · split
      · exact nofun
      · dsimp only
        split
        · intro e he
          exact ⟨_, _, List.mem_singleton.mp he⟩
        · exact nofun

theorem appendRecordIfNeeded_recorded (records : Recordings) (timestamp : Int) (address : Option Nat)
    (processes : List LsmProcessInfo) : Recorded (appendRecordIfNeeded records timestamp address processes).2.1 := by
  unfold appendRecordIfNeeded
  split
  · exact nofun
  · split
    · exact nofun
    · exact lsmProcessRecordAppend_recorded _ _ _ _

theorem Recorded.takenOf {seen : List Event} (h : Recorded seen) : takenOf seen = [] :=
  List.filterMap_eq_nil_iff.mpr fun e he => by
    obtain ⟨k, node, rfl⟩ := h e he
    rfl

theorem Recorded.publishedOf {seen : List Event} (h : Recorded seen) : publishedOf seen = [] :=
  List.filterMap_eq_nil_iff.mpr fun e he => by
    obtain ⟨k, node, rfl⟩ := h e he
    rfl

theorem Recorded.undisturbed {seen : List Event} (h : Recorded seen) : Undisturbed seen := by
  intro snapshot held hmem
  obtain ⟨k, node, heq⟩ := h _ hmem
  cases heq

variable {lib : Arithmetic} {numerals : Recorder.Numerals} {localtime : Int → Option Recorder.Tm}

/-! ### The order of the scans -/

/-- What was taken is older than what is ready, and what is ready than the next scan. -/
structure Ordered (log : List Event) (scanner : Scanner.State LsmProcessInfo Unit) : Prop where
  increasing : InOrder (takenOf log)
  earlier : ∀ snapshot ∈ takenOf log, snapshot.scan < scanner.scans
  here : ∀ listing, scanner.scanner.completed = some listing →
    listing.scan < scanner.scans ∧ ∀ snapshot ∈ takenOf log, snapshot.scan < listing.scan

theorem Ordered.create : Ordered [] Scanner.lsmProcessScannerCreate :=
  ⟨List.Pairwise.nil, nofun, nofun⟩

/-- No result has come and none was taken. -/
theorem Ordered.keep {log : List Event} {scanner t : Scanner.State LsmProcessInfo Unit} (h : Ordered log scanner)
    (hcompleted : t.scanner.completed = scanner.scanner.completed) (hscans : t.scans = scanner.scans)
    {seen : List Event} (hseen : takenOf seen = []) : Ordered (log ++ seen) t := by
  have htaken : takenOf (log ++ seen) = takenOf log := by
    rw [takenOf_append, hseen, List.append_nil]
  exact ⟨htaken ▸ h.increasing, htaken ▸ hscans ▸ h.earlier, htaken ▸ hscans ▸ hcompleted ▸ h.here⟩

theorem Ordered.scanner {log : List Event} {scanner t : Scanner.State LsmProcessInfo Unit} (h : Ordered log scanner)
    {a : Scanner.Action LsmProcessInfo Unit} (ha : ofScanner a = true) (hstep : Scanner.step scanner a = some t) :
    Ordered log t := by
  have hkeep : t.scanner.completed = scanner.scanner.completed → t.scans = scanner.scans → Ordered log t := by
    intro hcompleted hscans
    have hkept : Ordered (log ++ []) t := h.keep hcompleted hscans rfl
    rwa [List.append_nil] at hkept
  cases Scanner.machine_step hstep with
  | setReadyCallback | request | take | destroy | applicationReleases | callback => cases ha
  | callerQueues | workerQueues | workerReleases | dispatch | destroySource | discardSource => exact hkeep rfl rfl
  | next hworker =>
    obtain ⟨activeFlags, requestPending, scanInProgress, worker, -, hnext⟩ := Scanner.scannerThreadNext_frame scanner
    rw [hnext] at hkeep ⊢
    exact hkeep rfl rfl
  | finish processes flags hworker =>
    rcases Scanner.scannerThreadFinish_cases scanner processes with ⟨-, worker, -, hfinish⟩ |
      ⟨listed, -, rfl, hfinish⟩
    · rw [hfinish] at hkeep ⊢
      exact hkeep rfl rfl
    · obtain ⟨references, readyDispatchPending, worker, -, hpublish⟩ := Scanner.publish_frame scanner listed
      rw [hfinish, hpublish]
      refine ⟨h.increasing, fun snapshot hsnapshot => Nat.lt_succ_of_lt (h.earlier snapshot hsnapshot), ?_⟩
      intro listing hlisting
      cases hlisting
      exact ⟨Nat.lt_succ_self _, h.earlier⟩

/-- A ready result is handed over. -/
theorem take_eq_some {scanner t : Scanner.State LsmProcessInfo Unit} {snapshot : Snapshot} {count : Nat}
    (h : Scanner.lsmProcessScannerTake scanner = (t, some (some snapshot, count))) :
    scanner.scanner.completed = some snapshot ∧ t.scanner.completed = none ∧ t.scans = scanner.scans := by
  unfold Scanner.lsmProcessScannerTake at h
  split at h
  · simp only [Prod.mk.injEq, Option.some.injEq] at h
    obtain ⟨rfl, hcompleted, -⟩ := h
    exact ⟨hcompleted, rfl, rfl⟩
  · cases h

/-- The one taken comes after all before it. -/
theorem Ordered.take {log : List Event} {scanner t : Scanner.State LsmProcessInfo Unit} (h : Ordered log scanner)
    {snapshot : Snapshot} {count : Nat}
    (htake : Scanner.lsmProcessScannerTake scanner = (t, some (some snapshot, count))) (held : Nat) {seen : List Event}
    (hseen : Recorded seen) : Ordered (log ++ .taken snapshot held :: seen) t := by
  obtain ⟨hcompleted, hnone, hscans⟩ := take_eq_some htake
  obtain ⟨hbound, hlater⟩ := h.here snapshot hcompleted
  have htaken : takenOf (log ++ .taken snapshot held :: seen) = takenOf log ++ [snapshot] := by
    rw [takenOf_append]
    exact congrArg (takenOf log ++ snapshot :: ·) hseen.takenOf
  refine ⟨?_, ?_, fun listing hlisting => absurd (hnone.symm.trans hlisting) nofun⟩
  · rw [htaken, InOrder, List.map_append, List.pairwise_append]
    refine ⟨h.increasing, List.pairwise_singleton _ _, ?_⟩
    intro scan hscan other hother
    obtain ⟨earlier, hearlier, rfl⟩ := List.mem_map.mp hscan
    rw [List.mem_singleton.mp hother]
    exact hlater earlier hearlier
  · rw [htaken, hscans]
    intro other hother
    rcases List.mem_append.mp hother with hother | hother
    · exact h.earlier other hother
    · exact List.mem_singleton.mp hother ▸ hbound

theorem Ordered.move {log seen : List Event} {s t : State} (h : Ordered log s.scanner)
    (hmove : Move lib numerals localtime s seen t) : Ordered (log ++ seen) t.scanner := by
  cases hmove with
  | scanner a t ha hstep => exact (List.append_nil log).symm ▸ h.scanner ha hstep
  | aside t hsame => exact h.keep hsame.1 hsame.2.2 rfl
  | pause paused => exact h.keep rfl rfl rfl
  | select pid => exact h.keep rfl rfl rfl
  | stop => exact h.keep rfl rfl rfl
  | start hidle hpid hinstance => exact h.keep rfl rfl rfl
  | hold scanner snapshot count caller timestamp address hfresh htake =>
    exact h.take htake _ (appendRecordIfNeeded_recorded _ _ _ _)
  | publish frame dialogs hdialogs => exact h.keep rfl rfl rfl
  | recorder k a recording file ha hk hstep => exact h.keep rfl rfl rfl
  | leave => exact h.keep rfl rfl rfl

/-! ### What is published -/

/-- Each snapshot taken is published or held. -/
structure Accounted (log : List Event) (s : State) : Prop where
  ordered : Ordered log s.scanner
  perm : (publishedOf log ++ heldBy s).Perm (takenOf log)
  inOrder : InOrder (publishedOf log ++ heldBy s) ↔ Undisturbed log

theorem Accounted.create : Accounted [] {} :=
  ⟨.create, .refl _, iff_of_true List.Pairwise.nil nofun⟩

theorem Accounted.keep {log seen : List Event} {s t : State} (h : Accounted log s) (hordered : Ordered (log ++ seen) t.scanner)
    (htaken : takenOf seen = []) (hundisturbed : Undisturbed seen)
    (hsame : publishedOf seen ++ heldBy t = heldBy s) : Accounted (log ++ seen) t := by
  have hqueue : publishedOf (log ++ seen) ++ heldBy t = publishedOf log ++ heldBy s := by
    rw [publishedOf_append, List.append_assoc, hsame]
  refine ⟨hordered, ?_, ?_⟩
  · rw [hqueue, takenOf_append, htaken, List.append_nil]
    exact h.perm
  · rw [hqueue, undisturbed_append, and_iff_left hundisturbed]
    exact h.inOrder

/-- A newer snapshot goes before those that are held. -/
theorem inOrder_insert {published held : List Snapshot} {snapshot : Snapshot}
    (hnewer : ∀ other ∈ published ++ held, other.scan < snapshot.scan) :
    InOrder (published ++ snapshot :: held) ↔ InOrder (published ++ held) ∧ held = [] := by
  cases held with
  | nil =>
    rw [InOrder, List.map_append, List.pairwise_append, and_iff_left rfl, InOrder, List.append_nil]
    refine and_iff_left ⟨List.pairwise_singleton _ _, ?_⟩
    intro scan hscan other hother
    obtain ⟨earlier, hearlier, rfl⟩ := List.mem_map.mp hscan
    rw [List.mem_singleton.mp hother]
    exact hnewer earlier (List.mem_append_left _ hearlier)
  | cons first held =>
    refine iff_of_false ?_ fun h => absurd h.2 (List.cons_ne_nil _ _)
    rw [InOrder, List.map_append, List.pairwise_append, List.map_cons, List.map_cons, List.pairwise_cons]
    intro h
    have hbefore := h.2.1.1 first.scan (List.mem_cons_self ..)
    exact Nat.lt_asymm hbefore (hnewer first (by simp))

theorem Accounted.hold {log : List Event} {s t : State} (h : Accounted log s) {snapshot : Snapshot} {seen : List Event}
    (hseen : Recorded seen) (hordered : Ordered (log ++ .taken snapshot s.dialogs.length :: seen) t.scanner)
    (hnewer : ∀ other ∈ takenOf log, other.scan < snapshot.scan) (hheld : heldBy t = snapshot :: heldBy s) :
    Accounted (log ++ .taken snapshot s.dialogs.length :: seen) t := by
  have hpublished : publishedOf (log ++ .taken snapshot s.dialogs.length :: seen) = publishedOf log := by
    rw [publishedOf_append]
    exact (congrArg (publishedOf log ++ ·) hseen.publishedOf).trans (List.append_nil _)
  have htaken : takenOf (log ++ .taken snapshot s.dialogs.length :: seen) = takenOf log ++ [snapshot] := by
    rw [takenOf_append]
    exact congrArg (takenOf log ++ snapshot :: ·) hseen.takenOf
  refine ⟨hordered, ?_, ?_⟩
  · rw [hpublished, htaken, hheld]
    exact List.perm_middle.trans ((h.perm.cons snapshot).trans (List.perm_append_singleton snapshot _).symm)
  · have hundisturbed : Undisturbed (log ++ .taken snapshot s.dialogs.length :: seen) ↔
        Undisturbed log ∧ heldBy s = [] := by
      rw [undisturbed_append, ← List.singleton_append, undisturbed_append, and_iff_left hseen.undisturbed]
      refine and_congr_right fun _ => ?_
      rw [heldBy, List.map_eq_nil_iff, ← List.length_eq_zero_iff]
      constructor
      · intro hone
        exact hone snapshot _ (List.mem_singleton_self _)
      · intro hzero other held hmem
        cases List.mem_singleton.mp hmem
        exact hzero
    rw [hpublished, hheld, hundisturbed, ← h.inOrder]
    exact inOrder_insert fun other hother => hnewer other (h.perm.subset hother)

theorem Accounted.move {log seen : List Event} {s t : State} (h : Accounted log s)
    (hmove : Move lib numerals localtime s seen t) : Accounted (log ++ seen) t := by
  have hordered := h.ordered.move hmove
  cases hmove with
  | scanner | aside | pause | select | stop | start | recorder | leave =>
    exact h.keep hordered rfl (by intro snapshot held hmem; simp at hmem) rfl
  | hold scanner snapshot count caller timestamp address hfresh htake =>
    exact h.hold (appendRecordIfNeeded_recorded _ _ _ _) hordered
      (h.ordered.here snapshot (take_eq_some htake).1).2 rfl
  | publish frame dialogs hdialogs =>
    refine h.keep hordered rfl (by intro snapshot held hmem; simp at hmem) ?_
    show frame.snapshot :: dialogs.map (·.snapshot) = heldBy s
    rw [heldBy, hdialogs, List.map_cons]

/-! ### What is shown -/

/-- The generation is never zero again, and returns to one instead. -/
def generationAfter (publications : Nat) : Nat :=
  if publications = 0 then 0 else (publications - 1) % (2 ^ 64 - 1) + 1

theorem nextGeneration_after (publications : Nat) :
    nextGeneration (generationAfter publications) = generationAfter (publications + 1) := by
  rw [nextGeneration, generationAfter, generationAfter, if_neg (Nat.succ_ne_zero _), Nat.add_sub_cancel]
  by_cases hnone : publications = 0
  · subst hnone
    rfl
  · rw [if_neg hnone]
    split
    · omega
    · omega

/-- The pages show the snapshot published last. -/
structure Shown (log : List Event) (s : State) : Prop where
  snapshot : s.shuttingDown = false → s.processSnapshot = ((publishedOf log).getLast?.map (·.processes)).getD []
  count : s.processCount = ((publishedOf log).getLast?.map fun snapshot => min snapshot.processes.length uintMax).getD 0
  generation : s.processSnapshotGeneration = generationAfter (publishedOf log).length

theorem Shown.create : Shown [] {} := ⟨fun _ => rfl, rfl, rfl⟩

theorem Shown.move {log seen : List Event} {s t : State} (h : Shown log s)
    (hmove : Move lib numerals localtime s seen t) : Shown (log ++ seen) t := by
  have hsame : publishedOf seen = [] → publishedOf (log ++ seen) = publishedOf log := by
    intro hseen
    rw [publishedOf_append, hseen, List.append_nil]
  cases hmove with
  | scanner | aside | pause | select | stop | start | recorder =>
    have hpublished := hsame rfl
    exact ⟨hpublished ▸ h.snapshot, hpublished ▸ h.count, hpublished ▸ h.generation⟩
  | hold scanner snapshot count caller timestamp address hfresh htake =>
    have hpublished := hsame (appendRecordIfNeeded_recorded s.records timestamp address snapshot.processes).publishedOf
    exact ⟨hpublished ▸ h.snapshot, hpublished ▸ h.count, hpublished ▸ h.generation⟩
  | publish frame dialogs hdialogs =>
    have hpublished : publishedOf (log ++ [.published frame.snapshot]) = publishedOf log ++ [frame.snapshot] :=
      publishedOf_append log _
    refine ⟨fun _ => ?_, ?_, ?_⟩
    · rw [hpublished, List.getLast?_concat]
      rfl
    · rw [hpublished, List.getLast?_concat]
      rfl
    · rw [hpublished, List.length_append]
      show nextGeneration s.processSnapshotGeneration = _
      rw [h.generation]
      exact nextGeneration_after _
  | leave =>
    have hpublished := hsame rfl
    exact ⟨nofun, hpublished ▸ h.count, hpublished ▸ h.generation⟩

/-! ### Every run -/

def recorded : LsmProcessInfo := {pid := 42, instanceId := 9, threads := 3}

end SystemMonitor.App
