import SystemMonitor.App.Publication

/-! From the process that was selected to its recording.

An observer who only sees the log keeps, for each recording that was started, the snapshots
taken since and the rows accepted (`Session`). Each row is the selected process in its
snapshot, and the rows follow the snapshots without a gap: the first one that gives no row
ends the recording (`recordings_gapless`). What the file of a recording gives back, at any
moment, is the same process in the same snapshots (`recording_plotted`). -/
namespace SystemMonitor.App
open Lib Process

/-! ### Sessions -/

structure Session where
  pid : Nat
  instanceId : Nat
  /-- The snapshots that were taken since, until another recording was started. -/
  offered : List Snapshot := []
  rows : List Recorder.RecordNode := []

def Session.offer (session : Session) (snapshot : Snapshot) : Session :=
  {session with offered := session.offered ++ [snapshot]}

def Session.record (session : Session) (node : Recorder.RecordNode) : Session :=
  {session with rows := session.rows ++ [node]}

def observe (sessions : List Session) : Event → List Session
  | .taken snapshot _ => sessions.modify (sessions.length - 1) (·.offer snapshot)
  | .published _ => sessions
  | .started pid instanceId => sessions ++ [{pid, instanceId}]
  | .accepted k node => sessions.modify k (·.record node)

def sessionsOf (log : List Event) : List Session := log.foldl observe []

/-- The process is in the snapshot, and this is its row. -/
def IsRow (pid instanceId : Nat) (snapshot : Snapshot) (node : Recorder.RecordNode) : Prop :=
  ∃ process, snapshot.processes.find? (isTarget pid instanceId) = some process ∧
    ∃ timestamp, node = Recorder.recordNode timestamp process

/-- The rows are those of the first snapshots offered, one each. -/
def Session.Gapless (session : Session) : Prop :=
  List.Forall₂ (IsRow session.pid session.instanceId) (session.offered.take session.rows.length) session.rows

theorem sessionsOf_append (log seen : List Event) : sessionsOf (log ++ seen) = seen.foldl observe (sessionsOf log) :=
  List.foldl_append

theorem Session.Gapless.length_le {session : Session} (h : session.Gapless) :
    session.rows.length ≤ session.offered.length := by
  have hlength := List.Forall₂.length_eq h
  rw [List.length_take] at hlength
  omega

theorem Session.Gapless.offer {session : Session} (h : session.Gapless) (snapshot : Snapshot) :
    (session.offer snapshot).Gapless := by
  show List.Forall₂ _ ((session.offered ++ [snapshot]).take session.rows.length) session.rows
  rw [List.take_append_of_le_length h.length_le]
  exact h

/-- The next row, from the snapshot just taken. -/
theorem Session.Gapless.record {session : Session} (h : session.Gapless)
    (hcurrent : session.rows.length = session.offered.length) {snapshot : Snapshot} {node : Recorder.RecordNode}
    (hrow : IsRow session.pid session.instanceId snapshot node) : ((session.offer snapshot).record node).Gapless := by
  show List.Forall₂ _ ((session.offered ++ [snapshot]).take (session.rows ++ [node]).length) (session.rows ++ [node])
  rw [List.take_of_length_le (by simp [hcurrent])]
  rw [Session.Gapless, List.take_of_length_le (Nat.le_of_eq hcurrent.symm)] at h
  exact List.rel_append h (.cons hrow .nil)

/-! ### A session and its recording -/

/-- What the recorder's own log says of the rows. -/
structure Follows (numerals : Recorder.Numerals) (localtime : Int → Option Recorder.Tm) (session : Session)
    (recording : Recording) : Prop where
  target : 1 < session.pid ∧ session.instanceId ≠ 0
  gapless : session.Gapless
  file : ∃ log, Recorder.OnFile numerals localtime log recording.file ∧ Recorder.acceptedNodes log = session.rows

variable {lib : Arithmetic} {numerals : Recorder.Numerals} {localtime : Int → Option Recorder.Tm}

theorem Follows.offer {session : Session} {recording : Recording} (h : Follows numerals localtime session recording)
    (snapshot : Snapshot) : Follows numerals localtime (session.offer snapshot) recording :=
  ⟨h.target, h.gapless.offer snapshot, h.file⟩

/-- A step of the recorder that accepts nothing. -/
theorem Follows.step {session : Session} {recording : Recording} (h : Follows numerals localtime session recording)
    {a : Recorder.FileAction} {file : Recorder.RecordingFile}
    (hstep : Recorder.fileStep numerals localtime recording.file a = some file)
    (hnone : Recorder.acceptedNodes (Recorder.fileEvents recording.file a) = []) :
    Follows numerals localtime session {recording with file} := by
  obtain ⟨log, hfile, hrows⟩ := h.file
  refine ⟨h.target, h.gapless, log ++ Recorder.fileEvents recording.file a, hfile.step hstep, ?_⟩
  rw [Recorder.acceptedNodes_append, hnone, List.append_nil, hrows]

theorem Follows.worker {session : Session} {recording : Recording} (h : Follows numerals localtime session recording)
    {a : Recorder.FileAction} (ha : OfWorker a) {file : Recorder.RecordingFile}
    (hstep : Recorder.fileStep numerals localtime recording.file a = some file) :
    Follows numerals localtime session {recording with file} := by
  refine h.step hstep ?_
  cases a with
  | recorder a =>
    cases a with
    | append i timestamp process => exact absurd rfl (ha i timestamp process).1
    | wrote outcome reached => cases hstep
    | stop | next | discard | closed => rfl
  | row write =>
    cases write with
    | whole | torn => rfl

theorem Follows.stop {session : Session} {recording : Recording} (h : Follows numerals localtime session recording) :
    Follows numerals localtime session recording.stop :=
  h.step (a := .recorder .stop) rfl rfl

/-- What an append leaves of the recording. -/
def Recording.append (recording : Recording) (i : Nat) (timestamp : Int) (process : LsmProcessInfo) : Recording :=
  {recording with file.state.recorder :=
    (Recorder.lsmProcessRecorderAppend recording.file.state.recorder i (Recorder.recordNode timestamp process)).1}

variable (numerals localtime) in
theorem append_step {recording : Recording} {i : Nat} (hfresh : recording.file.state.recorder.heap i = none)
    (timestamp : Int) (process : LsmProcessInfo) :
    Recorder.fileStep numerals localtime recording.file (.recorder (.append i timestamp process)) =
      some (recording.append i timestamp process).file := by
  simp [Recorder.fileStep, Recorder.machine, Recorder.step, hfresh, Recording.append]

theorem Follows.reject {session : Session} {recording : Recording} (h : Follows numerals localtime session recording)
    {i : Nat} (hfresh : recording.file.state.recorder.heap i = none) {timestamp : Int} {process : LsmProcessInfo}
    (hrejected : (Recorder.lsmProcessRecorderAppend recording.file.state.recorder i
      (Recorder.recordNode timestamp process)).2 = false) :
    Follows numerals localtime session (recording.append i timestamp process) := by
  refine h.step (append_step numerals localtime hfresh timestamp process) ?_
  rw [Recorder.fileEvents, Recorder.events, hrejected]
  rfl

theorem Follows.accept {session : Session} {recording : Recording} (h : Follows numerals localtime session recording)
    (hcurrent : session.rows.length = session.offered.length) {snapshot : Snapshot} {process : LsmProcessInfo}
    (hfound : snapshot.processes.find? (isTarget session.pid session.instanceId) = some process)
    {i : Nat} (hfresh : recording.file.state.recorder.heap i = none) {timestamp : Int}
    (haccepted : (Recorder.lsmProcessRecorderAppend recording.file.state.recorder i
      (Recorder.recordNode timestamp process)).2 = true) :
    Follows numerals localtime ((session.offer snapshot).record (Recorder.recordNode timestamp process))
      (recording.append i timestamp process) := by
  obtain ⟨log, hfile, hrows⟩ := h.file
  have hstep := append_step numerals localtime hfresh timestamp process
  refine ⟨h.target, h.gapless.record hcurrent ⟨process, hfound, timestamp, rfl⟩, _,
    hfile.step (a := .recorder (.append i timestamp process)) hstep, ?_⟩
  rw [Recorder.acceptedNodes_append, hrows, Recorder.fileEvents, Recorder.events, haccepted]
  rfl

/-! ### All of them -/

structure Each (numerals : Recorder.Numerals) (localtime : Int → Option Recorder.Tm) (created : List Recording)
    (sessions : List Session) : Prop where
  length : sessions.length = created.length
  follows : ∀ (k : Nat) recording session, created[k]? = some recording → sessions[k]? = some session →
    Follows numerals localtime session recording

theorem Each.set {created : List Recording} {sessions : List Session} (h : Each numerals localtime created sessions)
    {recording : Recording} {session : Session} (hnew : Follows numerals localtime session recording) (k : Nat) :
    Each numerals localtime (created.set k recording) (sessions.set k session) := by
  refine ⟨by rw [List.length_set, List.length_set, h.length], ?_⟩
  intro j other its hother hits
  by_cases hj : k = j
  · subst hj
    rw [List.getElem?_set_self' ] at hother hits
    obtain ⟨-, -, rfl⟩ := Option.map_eq_some_iff.mp hother
    obtain ⟨-, -, rfl⟩ := Option.map_eq_some_iff.mp hits
    exact hnew
  · rw [List.getElem?_set_ne hj] at hother hits
    exact h.follows j other its hother hits

theorem Each.concat {created : List Recording} {sessions : List Session} (h : Each numerals localtime created sessions)
    {recording : Recording} {session : Session} (hnew : Follows numerals localtime session recording) :
    Each numerals localtime (created ++ [recording]) (sessions ++ [session]) := by
  refine ⟨by simp [h.length], ?_⟩
  intro k other its hother hits
  rw [List.getElem?_append] at hother hits
  rw [h.length] at hits
  split at hother
  · rename_i hk
    rw [if_pos hk] at hits
    exact h.follows k other its hother hits
  · rename_i hk
    rw [if_neg hk] at hits
    cases List.mem_singleton.mp (List.mem_of_getElem? hother)
    cases List.mem_singleton.mp (List.mem_of_getElem? hits)
    exact hnew

/-- A snapshot is offered to one of them. -/
theorem Each.offer {created : List Recording} {sessions : List Session} (h : Each numerals localtime created sessions)
    (k : Nat) (snapshot : Snapshot) : Each numerals localtime created (sessions.modify k (·.offer snapshot)) := by
  refine ⟨by rw [List.length_modify, h.length], ?_⟩
  intro j recording session hrecording hsession
  rw [List.getElem?_modify] at hsession
  obtain ⟨before, hbefore, rfl⟩ := Option.map_eq_some_iff.mp hsession
  have hfollows := h.follows j recording before hrecording hbefore
  split
  · exact hfollows.offer snapshot
  · exact hfollows

theorem Each.close {records : Recordings} {sessions : List Session}
    (h : Each numerals localtime records.created sessions) :
    Each numerals localtime (closeRecordFile records).created sessions := by
  unfold closeRecordFile
  cases records.recorder with
  | none => exact h
  | some k =>
    refine ⟨by rw [List.length_modify, h.length], ?_⟩
    intro j recording session hrecording hsession
    rw [List.getElem?_modify] at hrecording
    obtain ⟨before, hbefore, rfl⟩ := Option.map_eq_some_iff.mp hrecording
    have hfollows := h.follows j before session hbefore hsession
    split
    · exact hfollows.stop
    · exact hfollows

/-! ### What the log and the application agree on -/

/-- The recording that is on is the last one, and has a row of every snapshot. -/
structure Current (records : Recordings) (sessions : List Session) (k : Nat) : Prop where
  last : k + 1 = records.created.length
  current : ∀ session, sessions[k]? = some session → session.rows.length = session.offered.length ∧
    records.recordingPid = session.pid ∧ records.recordingInstanceId = session.instanceId

structure Followed (numerals : Recorder.Numerals) (localtime : Int → Option Recorder.Tm) (log : List Event)
    (records : Recordings) : Prop where
  each : Each numerals localtime records.created (sessionsOf log)
  active : ∀ k, records.recorder = some k → Current records (sessionsOf log) k

theorem Followed.create : Followed numerals localtime [] {} :=
  ⟨⟨rfl, fun _ _ _ h => absurd h nofun⟩, nofun⟩

theorem Followed.keep {log seen : List Event} {records : Recordings} (h : Followed numerals localtime log records)
    (hseen : sessionsOf (log ++ seen) = sessionsOf log) : Followed numerals localtime (log ++ seen) records :=
  ⟨hseen ▸ h.each, hseen ▸ h.active⟩

theorem Followed.close {log : List Event} {records : Recordings} (h : Each numerals localtime records.created (sessionsOf log)) :
    Followed numerals localtime log (closeRecordFile records) :=
  ⟨h.close, nofun⟩

theorem Followed.start {log : List Event} {records : Recordings} (h : Followed numerals localtime log records)
    {pid instanceId : Nat} (hpid : 1 < pid) (hinstance : instanceId ≠ 0) :
    Followed numerals localtime (log ++ [.started pid instanceId]) {
      created := records.created ++ [{pid, instanceId}]
      recorder := some records.created.length
      recordingPid := pid
      recordingInstanceId := instanceId} := by
  have hsessions : sessionsOf (log ++ [.started pid instanceId]) = sessionsOf log ++ [⟨pid, instanceId, [], []⟩] :=
    sessionsOf_append log _
  have hnew : Follows numerals localtime ⟨pid, instanceId, [], []⟩ {pid, instanceId} :=
    ⟨⟨hpid, hinstance⟩, .nil, [], .create, rfl⟩
  refine ⟨hsessions ▸ h.each.concat hnew, ?_⟩
  intro k hk
  cases hk
  refine ⟨by simp, ?_⟩
  intro session hsession
  rw [hsessions, ← h.each.length, List.getElem?_concat_length] at hsession
  cases hsession
  exact ⟨rfl, rfl, rfl⟩

/-- The recording that is on gets its row, or ends. -/
theorem appendRecordIfNeeded_cases {records : Recordings} {k pid instanceId : Nat} {recording : Recording}
    (htarget : lsmAppProcessRecordingTarget records = some (pid, instanceId)) (hrecorder : records.recorder = some k)
    (hrecording : records.created[k]? = some recording) (timestamp : Int) {address : Option Nat}
    (hfresh : freshAddress records address = true) (processes : List LsmProcessInfo) :
    (∃ reported, appendRecordIfNeeded records timestamp address processes = (closeRecordFile records, [], reported)) ∨
    ∃ process i, processes.find? (isTarget pid instanceId) = some process ∧
      recording.file.state.recorder.heap i = none ∧
      let appended := {records with created := records.created.set k (recording.append i timestamp process)}
      match (Recorder.lsmProcessRecorderAppend recording.file.state.recorder i (Recorder.recordNode timestamp process)).2 with
      | true => appendRecordIfNeeded records timestamp address processes =
          (appended, [.accepted k (Recorder.recordNode timestamp process)], false)
      | false => appendRecordIfNeeded records timestamp address processes = (closeRecordFile appended, [], true) := by
  have hmatched : records.recorder.bind (fun k => (records.created[k]?).map (k, ·)) = some (k, recording) := by
    rw [hrecorder, Option.bind_some, hrecording]
    rfl
  rw [appendRecordIfNeeded, htarget]
  dsimp only
  cases hfound : processes.find? (isTarget pid instanceId) with
  | none => exact .inl ⟨false, rfl⟩
  | some process =>
    dsimp only
    rw [lsmProcessRecordAppend, hmatched]
    dsimp only
    split
    · exact .inl ⟨true, rfl⟩
    · cases address with
      | none => exact .inl ⟨true, rfl⟩
      | some i =>
        have hheap : recording.file.state.recorder.heap i = none := by
          simpa [freshAddress, hrecorder, hrecording] using hfresh
        refine .inr ⟨process, i, rfl, hheap, ?_⟩
        cases happended : (Recorder.lsmProcessRecorderAppend recording.file.state.recorder i
            (Recorder.recordNode timestamp process)).2 with
        | true =>
          dsimp only
          rw [if_pos happended]
          rfl
        | false =>
          dsimp only
          rw [if_neg (Bool.eq_false_iff.mp happended)]
          rfl

theorem Followed.hold {log : List Event} {records : Recordings} (h : Followed numerals localtime log records)
    (snapshot : Snapshot) (held : Nat) (timestamp : Int) {address : Option Nat}
    (hfresh : freshAddress records address = true) : Followed numerals localtime
      (log ++ .taken snapshot held :: (appendRecordIfNeeded records timestamp address snapshot.processes).2.1)
      (appendRecordIfNeeded records timestamp address snapshot.processes).1 := by
  have hoffered : sessionsOf (log ++ [.taken snapshot held]) =
      (sessionsOf log).modify ((sessionsOf log).length - 1) (·.offer snapshot) := sessionsOf_append log _
  have heach : Each numerals localtime records.created (sessionsOf (log ++ [.taken snapshot held])) := by
    rw [hoffered]
    exact h.each.offer _ snapshot
  cases hrecorder : records.recorder with
  | none =>
    have htarget : lsmAppProcessRecordingTarget records = none := if_pos (.inl hrecorder)
    rw [appendRecordIfNeeded, htarget]
    exact ⟨heach, fun k hk => absurd (hrecorder.symm.trans hk) nofun⟩
  | some k =>
    obtain ⟨hlast, hcurrent⟩ := h.active k hrecorder
    obtain ⟨recording, hrecording⟩ : ∃ recording, records.created[k]? = some recording :=
      ⟨_, List.getElem?_eq_getElem (by omega)⟩
    obtain ⟨session, hsession⟩ : ∃ session, (sessionsOf log)[k]? = some session :=
      ⟨_, List.getElem?_eq_getElem (by rw [h.each.length]; omega)⟩
    obtain ⟨hrows, hpid, hinstance⟩ := hcurrent session hsession
    have hfollows := h.each.follows k recording session hrecording hsession
    have htarget : lsmAppProcessRecordingTarget records = some (session.pid, session.instanceId) := by
      rw [lsmAppProcessRecordingTarget, hpid, hinstance]
      refine if_neg ?_
      rintro (hnone | hsmall | hzero)
      · exact absurd (hrecorder.symm.trans hnone) nofun
      · exact absurd hfollows.target.1 (Nat.not_lt_of_le hsmall)
      · exact hfollows.target.2 hzero
    have hplace : (sessionsOf log).length - 1 = k := by
      rw [h.each.length]
      omega
    rw [hplace, List.modify_eq_set_getElem?, hsession] at hoffered
    change _ = (sessionsOf log).set k (session.offer snapshot) at hoffered
    rcases appendRecordIfNeeded_cases htarget hrecorder hrecording timestamp hfresh snapshot.processes with
      ⟨reported, hclosed⟩ | ⟨process, i, hfound, hheap, happended⟩
    · rw [hclosed]
      exact .close heach
    · cases hresult : (Recorder.lsmProcessRecorderAppend recording.file.state.recorder i
          (Recorder.recordNode timestamp process)).2 with
      | true =>
        rw [hresult] at happended
        rw [happended]
        have hk : k < (sessionsOf log).length := (List.getElem?_eq_some_iff.mp hsession).1
        have hrecorded : sessionsOf (log ++ [.taken snapshot held, .accepted k (Recorder.recordNode timestamp process)]) =
            (sessionsOf log).set k ((session.offer snapshot).record (Recorder.recordNode timestamp process)) := by
          have hmodified : sessionsOf (log ++ [.taken snapshot held, .accepted k (Recorder.recordNode timestamp process)]) =
              (sessionsOf (log ++ [.taken snapshot held])).modify k (·.record (Recorder.recordNode timestamp process)) := by
            rw [sessionsOf_append, sessionsOf_append]
            rfl
          rw [hmodified, hoffered, List.modify_eq_set_getElem?, List.getElem?_set_self hk]
          exact List.set_set ..
        refine ⟨hrecorded ▸ h.each.set (hfollows.accept hrows hfound hheap hresult) k, ?_⟩
        intro j hj
        cases hrecorder.symm.trans hj
        refine ⟨by rw [List.length_set, hlast], ?_⟩
        intro its hits
        rw [hrecorded, List.getElem?_set_self hk] at hits
        cases hits
        refine ⟨?_, hpid, hinstance⟩
        show (session.rows ++ [_]).length = (session.offered ++ [_]).length
        rw [List.length_append, List.length_append, hrows]
        rfl
      | false =>
        rw [hresult] at happended
        rw [happended]
        refine .close ?_
        rw [hoffered]
        exact h.each.set ((hfollows.offer snapshot).reject hheap hresult) k

theorem Followed.recorder {log : List Event} {records : Recordings} (h : Followed numerals localtime log records) {k : Nat}
    {recording : Recording} (hrecording : records.created[k]? = some recording) {a : Recorder.FileAction}
    (ha : OfWorker a) {file : Recorder.RecordingFile}
    (hstep : Recorder.fileStep numerals localtime recording.file a = some file) :
    Followed numerals localtime log {records with created := records.created.set k {recording with file}} := by
  have hk : k < (sessionsOf log).length := h.each.length ▸ (List.getElem?_eq_some_iff.mp hrecording).1
  have hsession := List.getElem?_eq_getElem hk
  have hfollows := (h.each.follows k recording _ hrecording hsession).worker ha hstep
  refine ⟨?_, ?_⟩
  · have heach := h.each.set hfollows k
    rwa [List.set_getElem_self] at heach
  · intro j hj
    obtain ⟨hlast, hcurrent⟩ := h.active j hj
    exact ⟨by rw [List.length_set, hlast], hcurrent⟩

theorem Followed.move {log seen : List Event} {s t : State} (h : Followed numerals localtime log s.records)
    (hmove : Move lib numerals localtime s seen t) : Followed numerals localtime (log ++ seen) t.records := by
  have hsilent := (List.append_nil log).symm ▸ h
  cases hmove with
  | scanner | aside | pause | select | leave => exact hsilent
  | stop =>
    rw [List.append_nil]
    exact .close h.each
  | start hidle hpid hinstance => exact h.start hpid hinstance
  | hold scanner snapshot count caller timestamp address hfresh htake => exact h.hold snapshot _ timestamp hfresh
  | publish frame dialogs hdialogs => exact h.keep (sessionsOf_append log _)
  | recorder k a recording file ha hrecording hstep =>
    rw [List.append_nil]
    exact h.recorder hrecording ha hstep

/-! ### The selection -/

/-- The process is in one of these snapshots. -/
def InSome (snapshots : List Snapshot) (pid instanceId : Nat) : Prop :=
  ∃ snapshot ∈ snapshots, ∃ process ∈ snapshot.processes, isTarget pid instanceId process = true

/-- Each recording is of a process that had been published before it was started. -/
def Chosen (log : List Event) : Prop :=
  ∀ front pid instanceId back, log = front ++ .started pid instanceId :: back → InSome (publishedOf front) pid instanceId

theorem InSome.append {snapshots : List Snapshot} {pid instanceId : Nat} (h : InSome snapshots pid instanceId)
    (more : List Snapshot) : InSome (snapshots ++ more) pid instanceId := by
  obtain ⟨snapshot, hsnapshot, hprocess⟩ := h
  exact ⟨snapshot, List.mem_append_left _ hsnapshot, hprocess⟩

theorem Chosen.append {log seen : List Event} (h : Chosen log) (hseen : ∀ pid instanceId, .started pid instanceId ∉ seen) :
    Chosen (log ++ seen) := by
  intro front pid instanceId back hlog
  rcases List.append_eq_append_iff.mp hlog with ⟨middle, -, rfl⟩ | ⟨middle, rfl, hback⟩
  · exact absurd (List.mem_append_right _ (List.mem_cons_self ..)) (hseen pid instanceId)
  · cases middle with
    | nil =>
      rw [List.nil_append] at hback
      exact absurd (hback ▸ List.mem_cons_self ..) (hseen pid instanceId)
    | cons e middle =>
      cases hback
      exact h front pid instanceId middle rfl

theorem Chosen.start {log : List Event} (h : Chosen log) {pid instanceId : Nat}
    (hchosen : InSome (publishedOf log) pid instanceId) : Chosen (log ++ [.started pid instanceId]) := by
  intro front other otherInstance back hlog
  rcases List.append_eq_append_iff.mp hlog with ⟨middle, rfl, hback⟩ | ⟨middle, rfl, hback⟩
  · cases middle with
    | nil =>
      cases hback
      rw [List.append_nil]
      exact hchosen
    | cons e middle =>
      have hlength := congrArg List.length hback
      simp at hlength
  · cases middle with
    | nil =>
      cases hback
      rwa [List.append_nil] at hchosen
    | cons e middle =>
      cases hback
      exact h front other otherInstance middle rfl

structure Selected (log : List Event) (s : State) : Prop where
  shown : ∀ process ∈ s.processSnapshot, ∃ snapshot ∈ publishedOf log, process ∈ snapshot.processes
  selected : s.selectedInstanceId ≠ 0 → InSome (publishedOf log) s.selectedPid s.selectedInstanceId
  chosen : Chosen log

theorem Selected.create : Selected [] {} := by
  refine ⟨fun process hprocess => absurd hprocess List.not_mem_nil, fun hnonzero => absurd rfl hnonzero, ?_⟩
  intro front pid instanceId back hlog
  simp at hlog

theorem Selected.keep {log seen : List Event} {s t : State} (h : Selected log s)
    (hsnapshot : t.processSnapshot = s.processSnapshot) (hpid : t.selectedPid = s.selectedPid)
    (hinstance : t.selectedInstanceId = s.selectedInstanceId)
    (hseen : ∀ pid instanceId, .started pid instanceId ∉ seen) : Selected (log ++ seen) t := by
  refine ⟨?_, ?_, h.chosen.append hseen⟩
  · rw [hsnapshot, publishedOf_append]
    intro process hprocess
    obtain ⟨snapshot, hmem, hits⟩ := h.shown process hprocess
    exact ⟨snapshot, List.mem_append_left _ hmem, hits⟩
  · rw [hpid, hinstance, publishedOf_append]
    exact fun hnonzero => (h.selected hnonzero).append _

theorem Selected.select {log : List Event} {s : State} (h : Selected log s) (pid : Nat) :
    Selected log (lsmProcessSelectionSet s pid) := by
  refine ⟨h.shown, ?_, h.chosen⟩
  simp only [lsmProcessSelectionSet]
  split
  · exact fun hnonzero => absurd rfl hnonzero
  · cases hfound : s.processSnapshot.find? fun process => process.pid = pid with
    | none => exact fun hnonzero => absurd rfl hnonzero
    | some process =>
      intro _
      obtain ⟨snapshot, hsnapshot, hits⟩ := h.shown process (List.mem_of_find?_eq_some hfound)
      have hpid : process.pid = pid := by simpa using List.find?_some hfound
      exact ⟨snapshot, hsnapshot, process, hits, by simp [isTarget, hpid]⟩

theorem Selected.move {log seen : List Event} {s t : State} (h : Selected log s)
    (hmove : Move lib numerals localtime s seen t) : Selected (log ++ seen) t := by
  cases hmove with
  | scanner | aside | pause | stop | recorder => exact h.keep rfl rfl rfl fun _ _ => List.not_mem_nil
  | select pid =>
    rw [List.append_nil]
    exact h.select pid
  | start hidle hpid hinstance =>
    have hpublished : publishedOf (log ++ [.started s.selectedPid s.selectedInstanceId]) = publishedOf log := by
      rw [publishedOf_append]
      exact List.append_nil _
    exact ⟨hpublished ▸ h.shown, hpublished ▸ h.selected, h.chosen.start (h.selected hinstance)⟩
  | hold scanner snapshot count caller timestamp address hfresh htake =>
    refine h.keep rfl rfl rfl fun pid instanceId hmem => ?_
    rcases List.mem_cons.mp hmem with heq | hmem
    · cases heq
    · obtain ⟨k, node, heq⟩ := appendRecordIfNeeded_recorded _ _ _ _ _ hmem
      cases heq
  | publish frame dialogs hdialogs =>
    have hpublished : publishedOf (log ++ [.published frame.snapshot]) = publishedOf log ++ [frame.snapshot] :=
      publishedOf_append log _
    refine ⟨?_, ?_, h.chosen.append (by simp)⟩
    · intro process hprocess
      exact ⟨frame.snapshot, by simp [hpublished], hprocess⟩
    · rw [hpublished]
      exact fun hnonzero => (h.selected hnonzero).append _
  | leave =>
    refine ⟨fun process hprocess => absurd hprocess List.not_mem_nil, ?_, h.chosen.append fun _ _ => List.not_mem_nil⟩
    rw [List.append_nil]
    exact h.selected

/-! ### Every run -/

/-- **A recording has no gaps.** In every run: each recording that was started is of a process
that had been published, its rows are that process in the first snapshots taken since, one
each, and while it is on in all of them. -/
theorem recordings_gapless (lib : Arithmetic) (numerals : Recorder.Numerals) (localtime : Int → Option Recorder.Tm)
    {actions : List Action} {s : State} (hrun : (machine lib numerals localtime).run {} actions = some s) :
    let log := (machine lib numerals localtime).trace (events lib numerals localtime) {} actions
    Chosen log ∧ (sessionsOf log).length = s.records.created.length ∧
      (∀ session ∈ sessionsOf log, 1 < session.pid ∧ session.instanceId ≠ 0 ∧ session.Gapless) ∧
      ∀ k, s.records.recorder = some k → k + 1 = (sessionsOf log).length ∧
        ∀ session, (sessionsOf log)[k]? = some session → session.rows.length = session.offered.length := by
  intro log
  have hfollowed : Followed numerals localtime log s.records :=
    run_kept (fun log s => Followed numerals localtime log s.records) (fun h hmove => h.move hmove) .create hrun
  have hselected : Selected log s := run_kept Selected (fun h hmove => h.move hmove) .create hrun
  refine ⟨hselected.chosen, hfollowed.each.length, ?_, ?_⟩
  · intro session hsession
    obtain ⟨k, hk, rfl⟩ := List.mem_iff_getElem.mp hsession
    have hfollows := hfollowed.each.follows k _ _ (List.getElem?_eq_getElem (hfollowed.each.length ▸ hk))
      (List.getElem?_eq_getElem hk)
    exact ⟨hfollows.target.1, hfollows.target.2, hfollows.gapless⟩
  · intro k hk
    obtain ⟨hlast, hcurrent⟩ := hfollowed.active k hk
    exact ⟨hlast.trans hfollowed.each.length.symm, fun session hsession => (hcurrent session hsession).1⟩

def followedProcess : LsmProcessInfo := {Recorder.sampleProcess with instanceId := 9}

/-- The process is recorded once, and is gone in the next snapshot. -/
def goneWhileRecorded : List Action :=
  [.scanner .next, .scanner (.finish (some [followedProcess])), .update 0 none 0, .select 42, .record true true,
    .scanner .next, .scanner (.finish (some [followedProcess])), .update 1709247599 (some 0) 0,
    .scanner .next, .scanner (.finish (some [])), .update 1709247600 none 0,
    .recorderNext 0, .recorderWrote 0 .whole, .recorderNext 0, .recorderClosed 0 none]

theorem recordings_gapless_gone :
    let log := (machine .documented .documented fun _ => some Recorder.leapDay).trace
      (events .documented .documented fun _ => some Recorder.leapDay) {} goneWhileRecorded
    (sessionsOf log).map (fun session => (session.offered.length, session.rows.length)) = [(2, 1)] ∧
      Chosen log ∧ ∀ session ∈ sessionsOf log, session.Gapless := by
  intro log
  obtain ⟨s, hrun, -⟩ := (machine .documented .documented fun _ => some Recorder.leapDay).run_decided
    (p := fun s => s.records.recorder = none)
    (show ((machine .documented .documented fun _ => some Recorder.leapDay).run {} goneWhileRecorded).map _ = some true by
      decide +kernel)
  obtain ⟨hchosen, -, hsessions, -⟩ := recordings_gapless _ _ _ hrun
  exact ⟨by decide +kernel, hchosen, fun session hsession => (hsessions session hsession).2.2⟩

end SystemMonitor.App
