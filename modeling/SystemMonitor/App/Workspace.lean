import SystemMonitor.Recorder.Replay
import SystemMonitor.Scanner.Delivery

/-! The process workspace: from a finished scan to the pages, the history and the recorder.

The main loop takes a snapshot from the scanner, appends the recorded process, lets the
history ingest the snapshot and publishes it. A recording that has failed is reported in
between, in a dialog with a main loop of its own, and inside it the next snapshot may be
taken and published before the one that is held (`Frame`).

The scanner and the recorders are the machines of their modules: what the other threads do
is one action each, what the main loop does up to its next return to a loop is one action. -/
namespace SystemMonitor.App
open Lib Process

abbrev Snapshot := Scanner.Listing LsmProcessInfo

/-! ### Recordings -/

/-- A recorder that has been created, with its target. It goes on when the application has let
go of it. -/
structure Recording where
  pid : Nat
  instanceId : Nat
  file : Recorder.RecordingFile := {}

def Recording.stop (r : Recording) : Recording :=
  {r with file.state.recorder := Recorder.lsmProcessRecorderStop r.file.state.recorder}

structure Recordings where
  created : List Recording := []
  /-- `app->process.recorder`, by its place among those created. -/
  recorder : Option Nat := none
  recordingPid : Nat := 0
  recordingInstanceId : Nat := 0

/-- What an observer sees. `taken`: with so many snapshots held by dialogs. `published`: ingested
by the history and published. -/
inductive Event where
  | taken (snapshot : Snapshot) (held : Nat)
  | published (snapshot : Snapshot)
  | started (pid instanceId : Nat)
  | accepted (recorder : Nat) (node : Recorder.RecordNode)
  deriving DecidableEq

def closeRecordFile (records : Recordings) : Recordings where
  created := match records.recorder with
    | some k => records.created.modify k Recording.stop
    | none => records.created
  recorder := none
  recordingPid := 0
  recordingInstanceId := 0

/-- With what an observer sees, and whether the failure is reported. `address`: what `calloc`
gives for the node. -/
def lsmProcessRecordAppend (records : Recordings) (timestamp : Int) (address : Option Nat)
    (process : LsmProcessInfo) : Recordings × List Event × Bool :=
  match records.recorder.bind fun k => (records.created[k]?).map (k, ·) with
  | none => (records, [], false)
  | some (k, recording) =>
    if recording.file.state.recorder.failure ≠ 0 then (closeRecordFile records, [], true)
    else
      match address with
      | none => (closeRecordFile records, [], true)
      | some i =>
        let node := Recorder.recordNode timestamp process
        let appended := Recorder.lsmProcessRecorderAppend recording.file.state.recorder i node
        let records := {records with
          created := records.created.set k {recording with file.state.recorder := appended.1}}
        if appended.2 then (records, [.accepted k node], false) else (closeRecordFile records, [], true)

def isTarget (pid instanceId : Nat) (process : LsmProcessInfo) : Bool :=
  process.pid = pid && process.instanceId = instanceId

def lsmAppProcessRecordingTarget (records : Recordings) : Option (Nat × Nat) :=
  if records.recorder = none ∨ records.recordingPid ≤ 1 ∨ records.recordingInstanceId = 0 then none
  else some (records.recordingPid, records.recordingInstanceId)

def appendRecordIfNeeded (records : Recordings) (timestamp : Int) (address : Option Nat)
    (processes : List LsmProcessInfo) : Recordings × List Event × Bool :=
  match lsmAppProcessRecordingTarget records with
  | none => (records, [], false)
  | some (pid, instanceId) =>
    match processes.find? (isTarget pid instanceId) with
    | none => (closeRecordFile records, [], false)
    | some process => lsmProcessRecordAppend records timestamp address process

/-! ### The application -/

/-- Who asked for a completed snapshot, and with it what comes after. -/
inductive Caller where
  | ready
  | update
  | refreshAll (paused : Bool)

/-- A snapshot that is held while an error is shown. -/
structure Frame where
  snapshot : Snapshot
  caller : Caller

structure State where
  scanner : Scanner.State LsmProcessInfo Unit := Scanner.lsmProcessScannerCreate
  /-- `app->process_scanner` is set. -/
  attached : Bool := true
  paused : Bool := false
  shuttingDown : Bool := false
  processSnapshot : List LsmProcessInfo := []
  processSnapshotGeneration : Nat := 0
  processCount : Nat := 0
  threadCount : Nat := 0
  selectedPid : Nat := 0
  selectedInstanceId : Nat := 0
  records : Recordings := {}
  /-- The innermost main loop comes first. -/
  dialogs : List Frame := []

def lsmProcessSelectionSet (s : State) (pid : Nat) : State :=
  {s with
    selectedPid := pid
    selectedInstanceId :=
      if pid = 0 then 0
      else ((s.processSnapshot.find? fun process => process.pid = pid).map (·.instanceId)).getD 0}

/-- `created`: a file could be made and the thread started. -/
def lsmProcessRecordSet (s : State) (active created : Bool) : State × List Event :=
  if !active then ({s with records := closeRecordFile s.records}, [])
  else if s.records.recorder.isSome then (s, [])
  else if s.selectedPid ≤ 1 ∨ s.selectedInstanceId = 0 then (s, [])
  else if !created then (s, [])
  else
    ({s with records := {
        created := s.records.created ++ [{pid := s.selectedPid, instanceId := s.selectedInstanceId}]
        recorder := some s.records.created.length
        recordingPid := s.selectedPid
        recordingInstanceId := s.selectedInstanceId}},
      [.started s.selectedPid s.selectedInstanceId])

section
variable (lib : Arithmetic)

def lsmMonitorSetProcessTotals (s : State) (processes : List LsmProcessInfo) : State :=
  {s with
    processCount := min processes.length uintMax
    threadCount := min (processes.foldl (fun threads process => lib.u64AddSaturating threads process.threads) 0) uintMax}

def nextGeneration (generation : Nat) : Nat :=
  if (generation + 1) % 2 ^ 64 = 0 then 1 else (generation + 1) % 2 ^ 64

def lsmAppProcessPublishSnapshot (s : State) (processes : List LsmProcessInfo) : State :=
  {lsmMonitorSetProcessTotals lib s processes with
    processSnapshot := processes
    processSnapshotGeneration := nextGeneration s.processSnapshotGeneration}

/-- What the caller still does when the snapshot is dealt with; `scanFlags` are those of the
page that is then active. -/
def resume (s : State) (caller : Caller) (scanFlags : UInt32) : State :=
  match caller with
  | .ready => s
  | .update => {s with scanner := (Scanner.lsmProcessScannerRequest s.scanner scanFlags).1}
  | .refreshAll paused => {s with scanner := (Scanner.lsmProcessScannerRequest s.scanner scanFlags).1, paused}

/-- The rest of `consume_completed_process_snapshot`, behind the recorder. -/
def present (s : State) (frame : Frame) (scanFlags : UInt32) : State × List Event :=
  (resume (lsmAppProcessPublishSnapshot lib s frame.snapshot.processes) frame.caller scanFlags,
    [.published frame.snapshot])

/-- `consume_completed_process_snapshot`, up to its end or to the dialog of a failed recording. -/
def consumeCompletedProcessSnapshot (s : State) (caller : Caller) (timestamp : Int) (address : Option Nat)
    (scanFlags : UInt32) : State × List Event :=
  if s.paused || !s.attached then (resume s caller scanFlags, [])
  else
    match Scanner.lsmProcessScannerTake s.scanner with
    | (scanner, some (some snapshot, _)) =>
      let appended := appendRecordIfNeeded s.records timestamp address snapshot.processes
      let s' : State := {s with scanner, records := appended.1}
      let seen : List Event := .taken snapshot s.dialogs.length :: appended.2.1
      if appended.2.2 then ({s' with dialogs := {snapshot, caller} :: s.dialogs}, seen)
      else
        let presented := present lib s' {snapshot, caller} scanFlags
        (presented.1, seen ++ presented.2)
    -- A ready result always has its list.
    | _ => (resume s caller scanFlags, [])

def lsmProcessWorkspaceUpdate (s : State) (timestamp : Int) (address : Option Nat) (scanFlags : UInt32) :
    State × List Event :=
  if s.shuttingDown || s.paused || !s.attached then (s, [])
  else consumeCompletedProcessSnapshot lib s .update timestamp address scanFlags

def lsmAppRefreshAll (s : State) (timestamp : Int) (address : Option Nat) (scanFlags : UInt32) :
    State × List Event :=
  if s.shuttingDown || !s.attached then (s, [])
  else consumeCompletedProcessSnapshot lib {s with paused := false} (.refreshAll s.paused) timestamp address scanFlags

def processSnapshotReady (s : State) (timestamp : Int) (address : Option Nat) : State × List Event :=
  if s.shuttingDown || s.paused then (s, [])
  else consumeCompletedProcessSnapshot lib s .ready timestamp address 0

/-- The part of `lsm_app_shutdown` in the process domain. -/
def lsmProcessLifecycleDestroy (s : State) : State :=
  {s with
    shuttingDown := true
    records := closeRecordFile s.records
    scanner := if s.attached
      then Scanner.scannerRelease {Scanner.lsmProcessScannerDestroy s.scanner with application := .released}
      else s.scanner
    attached := false
    processSnapshot := []}

end

/-! ### The machine -/

inductive Action where
  /-- The scanner's worker and the idle sources. -/
  | scanner (a : Scanner.Action LsmProcessInfo Unit)
  /-- The callback of an idle source. -/
  | ready (source : Nat) (timestamp : Int) (address : Option Nat)
  | update (timestamp : Int) (address : Option Nat) (scanFlags : UInt32)
  | refreshAll (timestamp : Int) (address : Option Nat) (scanFlags : UInt32)
  | closeDialog (scanFlags : UInt32)
  | start
  | pause (paused : Bool)
  | select (pid : Nat)
  | record (active created : Bool)
  | recorderNext (recorder : Nat)
  | recorderWrote (recorder : Nat) (write : Recorder.RowWrite)
  | recorderDiscard (recorder : Nat)
  | recorderClosed (recorder : Nat) (outcome : Option Nat)
  | shutdown

/-- Allocation gives memory that is not in use. -/
def freshAddress (records : Recordings) (address : Option Nat) : Bool :=
  match records.recorder.bind (records.created[·]?), address with
  | some recording, some i => (recording.file.state.recorder.heap i).isNone
  | _, _ => true

/-- What the scanner does without the application. -/
def ofScanner : Scanner.Action LsmProcessInfo Unit → Bool
  | .callerQueues | .next | .finish _ | .workerQueues | .workerReleases | .dispatch _ | .destroySource _
  | .discardSource _ => true
  | .setReadyCallback _ | .request _ | .take | .destroy | .applicationReleases | .callback _ => false

section
variable (lib : Arithmetic) (numerals : Recorder.Numerals) (localtime : Int → Option Recorder.Tm)

def recorderStep (s : State) (k : Nat) (a : Recorder.FileAction) : Option (State × List Event) :=
  (s.records.created[k]?).bind fun recording =>
    (Recorder.fileStep numerals localtime recording.file a).map fun file =>
      ({s with records.created := s.records.created.set k {recording with file}}, [])

def act (s : State) : Action → Option (State × List Event)
  | .scanner a =>
    if ofScanner a then (Scanner.step s.scanner a).map fun scanner => ({s with scanner}, []) else none
  | .ready source timestamp address =>
    if freshAddress s.records address then
      match s.scanner.dispatches[source]? with
      | some (.entered callback) =>
        let s := {s with scanner.dispatches := s.scanner.dispatches.set source .returned}
        some (if callback.isSome then processSnapshotReady lib s timestamp address else (s, []))
      | _ => none
    else none
  | .update timestamp address scanFlags =>
    if freshAddress s.records address then some (lsmProcessWorkspaceUpdate lib s timestamp address scanFlags) else none
  | .refreshAll timestamp address scanFlags =>
    if freshAddress s.records address then some (lsmAppRefreshAll lib s timestamp address scanFlags) else none
  | .closeDialog scanFlags =>
    match s.dialogs with
    | [] => none
    | frame :: dialogs => some (present lib {s with dialogs} frame scanFlags)
  | .start =>
    if s.shuttingDown || !s.attached then some (s, [])
    else some ({s with scanner := Scanner.lsmProcessScannerSetReadyCallback s.scanner (some ())}, [])
  | .pause paused => some ({s with paused}, [])
  | .select pid => some (lsmProcessSelectionSet s pid, [])
  | .record active created => some (lsmProcessRecordSet s active created)
  | .recorderNext k => recorderStep numerals localtime s k (.recorder .next)
  | .recorderWrote k write => recorderStep numerals localtime s k (.row write)
  | .recorderDiscard k => recorderStep numerals localtime s k (.recorder .discard)
  | .recorderClosed k outcome => recorderStep numerals localtime s k (.recorder (.closed outcome))
  -- The application shuts down when its main loop has ended, and those inside it before.
  | .shutdown => if s.dialogs.isEmpty then some (lsmProcessLifecycleDestroy s, []) else none

def machine : Machine State Action := ⟨fun s a => (act lib numerals localtime s a).map Prod.fst⟩

def events (s : State) (a : Action) : List Event := ((act lib numerals localtime s a).map Prod.snd).getD []

end

/-! ### Moves -/

/-- What the scanner holds of results. -/
def SameResults (scanner t : Scanner.State LsmProcessInfo Unit) : Prop :=
  t.scanner.completed = scanner.scanner.completed ∧ t.scanner.resultReady = scanner.scanner.resultReady ∧
    t.scans = scanner.scans

/-- What a recorder does without the application. -/
def OfWorker (a : Recorder.FileAction) : Prop :=
  ∀ i timestamp process, a ≠ .recorder (.append i timestamp process) ∧ a ≠ .recorder .stop

variable {lib : Arithmetic} {numerals : Recorder.Numerals} {localtime : Int → Option Recorder.Tm}

/-- The pieces that actions are made of. A snapshot that is presented at once is one that is
held and then published. -/
inductive Move (lib : Arithmetic) (numerals : Recorder.Numerals) (localtime : Int → Option Recorder.Tm)
    (s : State) : List Event → State → Prop where
  | scanner (a : Scanner.Action LsmProcessInfo Unit) (t : Scanner.State LsmProcessInfo Unit) (ha : ofScanner a = true)
    (h : Scanner.step s.scanner a = some t) : Move lib numerals localtime s [] {s with scanner := t}
  | aside (t : Scanner.State LsmProcessInfo Unit) (h : SameResults s.scanner t) :
    Move lib numerals localtime s [] {s with scanner := t}
  | pause (paused : Bool) : Move lib numerals localtime s [] {s with paused}
  | select (pid : Nat) : Move lib numerals localtime s [] (lsmProcessSelectionSet s pid)
  | stop : Move lib numerals localtime s [] {s with records := closeRecordFile s.records}
  | start (hidle : s.records.recorder = none) (hpid : 1 < s.selectedPid) (hinstance : s.selectedInstanceId ≠ 0) :
    Move lib numerals localtime s [.started s.selectedPid s.selectedInstanceId] {s with records := {
      created := s.records.created ++ [{pid := s.selectedPid, instanceId := s.selectedInstanceId}]
      recorder := some s.records.created.length
      recordingPid := s.selectedPid
      recordingInstanceId := s.selectedInstanceId}}
  | hold (scanner : Scanner.State LsmProcessInfo Unit) (snapshot : Snapshot) (count : Nat) (caller : Caller)
    (timestamp : Int) (address : Option Nat) (hfresh : freshAddress s.records address = true)
    (htake : Scanner.lsmProcessScannerTake s.scanner = (scanner, some (some snapshot, count))) :
    Move lib numerals localtime s
      (.taken snapshot s.dialogs.length :: (appendRecordIfNeeded s.records timestamp address snapshot.processes).2.1)
      {s with
        scanner
        records := (appendRecordIfNeeded s.records timestamp address snapshot.processes).1
        dialogs := {snapshot, caller} :: s.dialogs}
  | publish (frame : Frame) (dialogs : List Frame) (hdialogs : s.dialogs = frame :: dialogs) :
    Move lib numerals localtime s [.published frame.snapshot]
      (lsmAppProcessPublishSnapshot lib {s with dialogs} frame.snapshot.processes)
  | recorder (k : Nat) (a : Recorder.FileAction) (recording : Recording) (file : Recorder.RecordingFile)
    (ha : OfWorker a) (hk : s.records.created[k]? = some recording)
    (h : Recorder.fileStep numerals localtime recording.file a = some file) :
    Move lib numerals localtime s [] {s with records.created := s.records.created.set k {recording with file}}
  | leave : Move lib numerals localtime s [] {s with shuttingDown := true, attached := false, processSnapshot := []}

inductive Moves (lib : Arithmetic) (numerals : Recorder.Numerals) (localtime : Int → Option Recorder.Tm) :
    State → List Event → State → Prop where
  | refl (s : State) : Moves lib numerals localtime s [] s
  | move {s t u : State} {seen more : List Event} (h : Move lib numerals localtime s seen t)
    (rest : Moves lib numerals localtime t more u) : Moves lib numerals localtime s (seen ++ more) u

theorem Move.once {s t : State} {seen : List Event} (h : Move lib numerals localtime s seen t) :
    Moves lib numerals localtime s seen t := by
  have hmoves := Moves.move h (.refl t)
  rwa [List.append_nil] at hmoves

/-- A move that nobody sees. -/
theorem Move.silently {s t u : State} {seen : List Event} (h : Move lib numerals localtime s [] t)
    (rest : Moves lib numerals localtime t seen u) : Moves lib numerals localtime s seen u :=
  .move h rest

theorem resume_moves (s : State) (caller : Caller) (scanFlags : UInt32) :
    Moves lib numerals localtime s [] (resume s caller scanFlags) := by
  have hrequest : Move lib numerals localtime s []
      {s with scanner := (Scanner.lsmProcessScannerRequest s.scanner scanFlags).1} := by
    obtain ⟨requestedFlags, requestPending, worker, -, hframe⟩ :=
      Scanner.lsmProcessScannerRequest_frame s.scanner scanFlags
    exact .aside _ (hframe.symm ▸ ⟨rfl, rfl, rfl⟩)
  cases caller with
  | ready => exact .refl s
  | update => exact hrequest.once
  | refreshAll paused => exact hrequest.silently (Move.pause paused).once

theorem present_moves {s : State} {frame : Frame} {dialogs : List Frame} (hdialogs : s.dialogs = frame :: dialogs)
    (scanFlags : UInt32) : Moves lib numerals localtime s (present lib {s with dialogs} frame scanFlags).2
      (present lib {s with dialogs} frame scanFlags).1 :=
  .move (.publish frame dialogs hdialogs) (resume_moves _ _ _)

theorem consume_moves (s : State) (caller : Caller) (timestamp : Int) {address : Option Nat}
    (hfresh : freshAddress s.records address = true) (scanFlags : UInt32) : Moves lib numerals localtime s
      (consumeCompletedProcessSnapshot lib s caller timestamp address scanFlags).2
      (consumeCompletedProcessSnapshot lib s caller timestamp address scanFlags).1 := by
  unfold consumeCompletedProcessSnapshot
  split
  · exact resume_moves s caller scanFlags
  · split
    · rename_i scanner snapshot count htake
      have hhold : Move lib numerals localtime s _ _ :=
        .hold scanner snapshot count caller timestamp address hfresh htake
      dsimp only
      split
      · exact hhold.once
      · exact .move hhold (present_moves rfl scanFlags)
    · exact resume_moves s caller scanFlags

theorem act_moves {s : State} {a : Action} {result : State × List Event}
    (h : act lib numerals localtime s a = some result) : Moves lib numerals localtime s result.2 result.1 := by
  have hrecorder : ∀ k a, OfWorker a → recorderStep numerals localtime s k a = some result →
      Moves lib numerals localtime s result.2 result.1 := by
    intro k a ha h
    obtain ⟨recording, hk, hfile⟩ := Option.bind_eq_some_iff.mp h
    obtain ⟨file, hstep, heq⟩ := Option.map_eq_some_iff.mp hfile
    cases heq
    exact (Move.recorder k a recording file ha hk hstep).once
  cases a with
  | scanner a =>
    simp only [act] at h
    split at h
    · rename_i ha
      obtain ⟨scanner, hstep, heq⟩ := Option.map_eq_some_iff.mp h
      cases heq
      exact (Move.scanner a scanner ha hstep).once
    · cases h
  | ready source timestamp address =>
    simp only [act] at h
    split at h
    · rename_i hfresh
      split at h
      · rename_i callback hsource
        cases h
        refine Move.silently (.aside {s.scanner with dispatches := s.scanner.dispatches.set source .returned}
          ⟨rfl, rfl, rfl⟩) ?_
        split
        · unfold processSnapshotReady
          split
          · exact .refl _
          · refine consume_moves _ _ _ ?_ _
            exact hfresh
        · exact .refl _
      · cases h
    · cases h
  | update timestamp address scanFlags =>
    simp only [act] at h
    split at h
    · rename_i hfresh
      cases h
      unfold lsmProcessWorkspaceUpdate
      split
      · exact .refl s
      · exact consume_moves _ _ _ hfresh _
    · cases h
  | refreshAll timestamp address scanFlags =>
    simp only [act] at h
    split at h
    · rename_i hfresh
      cases h
      unfold lsmAppRefreshAll
      split
      · exact .refl s
      · refine Move.silently (.pause false) (consume_moves _ _ _ ?_ _)
        exact hfresh
    · cases h
  | closeDialog scanFlags =>
    simp only [act] at h
    split at h
    · cases h
    · rename_i frame dialogs hdialogs
      cases h
      exact present_moves hdialogs scanFlags
  | start =>
    simp only [act] at h
    split at h
    · cases h
      exact .refl s
    · cases h
      refine (Move.aside _ ?_).once
      rcases Scanner.lsmProcessScannerSetReadyCallback_cases s.scanner (some ()) with ⟨-, hset⟩ | ⟨-, hset⟩ | ⟨-, hset⟩
      all_goals
        rw [hset]
        exact ⟨rfl, rfl, rfl⟩
  | pause paused =>
    cases h
    exact (Move.pause paused).once
  | select pid =>
    cases h
    exact (Move.select pid).once
  | record active created =>
    cases h
    unfold lsmProcessRecordSet
    split
    · exact Move.stop.once
    · split
      · exact .refl s
      · rename_i hidle
        split
        · exact .refl s
        · rename_i hselected
          obtain ⟨hpid, hinstance⟩ := not_or.mp hselected
          split
          · exact .refl s
          · exact (Move.start (by simpa using hidle) (Nat.lt_of_not_le hpid) hinstance).once
  | recorderNext k => exact hrecorder k (.recorder .next) (fun _ _ _ => ⟨by simp, by simp⟩) h
  | recorderWrote k write => exact hrecorder k (.row write) (fun _ _ _ => ⟨by simp, by simp⟩) h
  | recorderDiscard k => exact hrecorder k (.recorder .discard) (fun _ _ _ => ⟨by simp, by simp⟩) h
  | recorderClosed k outcome => exact hrecorder k (.recorder (.closed outcome)) (fun _ _ _ => ⟨by simp, by simp⟩) h
  | shutdown =>
    simp only [act] at h
    split at h
    · have hscanner : SameResults s.scanner (lsmProcessLifecycleDestroy s).scanner := by
        unfold lsmProcessLifecycleDestroy
        dsimp only
        split
        · exact ⟨rfl, rfl, rfl⟩
        · exact ⟨rfl, rfl, rfl⟩
      cases h
      exact Move.stop.silently (Move.silently (.aside _ hscanner) Move.leave.once)
    · cases h

/-- What every move keeps holds in every run. -/
theorem run_kept (Inv : List Event → State → Prop)
    (hmove : ∀ {log s seen t}, Inv log s → Move lib numerals localtime s seen t → Inv (log ++ seen) t)
    (hstart : Inv [] {}) {actions : List Action} {s : State}
    (hrun : (machine lib numerals localtime).run {} actions = some s) :
    Inv ((machine lib numerals localtime).trace (events lib numerals localtime) {} actions) s := by
  have hmoves : ∀ {log s seen t}, Moves lib numerals localtime s seen t → Inv log s → Inv (log ++ seen) t := by
    intro log s seen t h
    induction h generalizing log with
    | refl s => exact fun h => (List.append_nil log).symm ▸ h
    | move h rest ih =>
      intro hinv
      rw [← List.append_assoc]
      exact ih (hmove hinv h)
  refine (machine lib numerals localtime).run_trace_invariant (events lib numerals localtime) (fun _ _ => True) Inv ?_
    hstart ((machine lib numerals localtime).admissible_true _ actions) hrun
  intro log s a t hinv _ hstep
  obtain ⟨result, hact, rfl⟩ := Option.map_eq_some_iff.mp hstep
  rw [events, hact]
  exact hmoves (act_moves hact) hinv

end SystemMonitor.App
