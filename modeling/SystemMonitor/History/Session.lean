import SystemMonitor.History.Coordinator
import SystemMonitor.History.Loading

/-! The life of the history of one application run.

The main thread ingests snapshots, resets, saves and shuts down; a worker reads
the file once, at the start, and the main thread merges what it read; a save is
a call of `lsm_history_persistence_request_write`, on a worker or, at shutdown
and without a window, on the main thread itself. An action is one main-loop
callback, the worker's reading of the file, or one operation of a write call, so
a run is a schedule of all of them.

The worker opens the file once and every save replaces it by a rename, so what
is read is the content of one moment. -/
namespace SystemMonitor.History
open Lib

/-- How a load ends. A file that is not there is not a failure. -/
inductive LoadOutcome where
  | failed
  | absent
  | loaded (result : LsmHistoryLoadResult)

inductive LoadTask where
  | reading
  | finished (outcome : LoadOutcome)
  | completed

/-- The main thread runs callbacks, or is inside a synchronous save (the one of
`lsm_history_destroy` when `closing`), or has destroyed the history. -/
inductive MainThread where
  | idle
  | saving (call : Nat) (closing : Bool)
  | closed
  deriving DecidableEq

structure Session where
  history : LsmHistoryState
  persistence : Persistence
  load : LoadTask
  worker : Option Nat := none
  main : MainThread := .idle

/-- `history_model_initialise` with a window: the load is under way. -/
def Session.start (file : Option Text) : Session where
  history := {loadPending := true}
  persistence := {file}
  load := .reading

/-- How a save request turns out. -/
structure SaveRun where
  walk : Walk LsmHistoryEntry
  allocated : Bool

/-! ### Saving -/

/-- A request is made and scheduled, and a thread enters its write. -/
def schedule (walk : Walk LsmHistoryEntry) (s : Session) : Persistence :=
  beginWrite (noteScheduled s.persistence s.history.mutationGeneration) (historySaveRequestCreate walk s.history)

def lsmHistorySave (s : Session) (save : SaveRun) : Session :=
  if s.history.dirty = false then s
  else if s.history.loadPending ∨ s.history.savePending then {s with history := {s.history with saveAgain := true}}
  else if save.allocated then
    {s with
      history := {s.history with savePending := true}
      persistence := schedule save.walk s
      worker := some s.persistence.calls.length}
  else s

/-- `lsm_history_save` without a window, up to the write. -/
def lsmHistorySaveSync (s : Session) (save : SaveRun) : Session :=
  if s.history.dirty = false then s
  else if s.history.loadPending then {s with history := {s.history with saveAgain := true}}
  else if save.allocated then
    {s with persistence := schedule save.walk s, main := .saving s.persistence.calls.length false}
  else s

/-- What a completion does when a save was asked for in the meantime. -/
def saveIfAgain (s : Session) (save : SaveRun) : Session :=
  if s.history.saveAgain then lsmHistorySave {s with history := {s.history with saveAgain := false}} save else s

def historySaveComplete (s : Session) (request : LsmHistorySaveRequest) (failure : Nat) (written : Bool)
    (save : SaveRun) : Session :=
  let persisted := failure = 0 ∧ written = true ∧ request.generation = s.history.mutationGeneration
  saveIfAgain {s with
    history := {s.history with savePending := false, dirty := if persisted then false else s.history.dirty}
    worker := none} save

/-! ### Loading -/

/-- What the worker finds. -/
def loadOutcome (numerals : Numerals) (walk : Walk LsmHistoryEntry) (failed : Bool) (file : Option Text) :
    LoadOutcome :=
  if failed then .failed
  else match file with
    | none => .absent
    | some bytes => .loaded (historyLoadResult numerals walk bytes)

/-- The main thread's table with what the worker found; a failure changes nothing. -/
def mergeOutcome (lib : Arithmetic) (history : LsmHistoryState) (outcome : LoadOutcome) (run : MergeRun) :
    LsmHistoryState :=
  match outcome with
  | .loaded result => historyMergeLoaded lib {history with loadPending := false} result run
  | _ => {history with loadPending := false}

def historyLoadComplete (lib : Arithmetic) (s : Session) (outcome : LoadOutcome) (run : MergeRun) (save : SaveRun) :
    Session :=
  saveIfAgain {s with history := mergeOutcome lib s.history outcome run, load := .completed} save

/-! ### Shutting down -/

def historyClose (s : Session) : Session :=
  {s with
    history := {s.history with
      appHistory := .empty
      appHistorySamples := .empty
      entryCount := 0
      loadPending := false
      savePending := false
      saveAgain := false}
    main := .closed}

def lsmHistoryDestroy (s : Session) (save : SaveRun) : Session :=
  if s.history.dirty ∧ s.history.loadPending = false ∧ save.allocated then
    {s with persistence := schedule save.walk s, main := .saving s.persistence.calls.length true}
  else historyClose s

/-- The end of `history_save_checked_sync`. -/
def syncComplete (s : Session) (request : LsmHistorySaveRequest) (failure : Nat) (written closing : Bool) : Session :=
  let persisted := failure = 0 ∧ (written = true ∨ request.generation ≤ s.persistence.latestWritten)
  let t := {s with history := {s.history with dirty := if persisted then false else s.history.dirty}, main := .idle}
  if closing then historyClose t else t

/-! ### The machine -/

inductive SessionAction where
  | ingest (snapshot : Snapshot)
  | readFile (walk : Walk LsmHistoryEntry) (failed : Bool)
  | loadComplete (run : MergeRun) (save : SaveRun)
  | save (save : SaveRun)
  | saveSync (save : SaveRun)
  | reset (save : SaveRun)
  | saveComplete (save : SaveRun)
  | syncComplete
  | destroy (save : SaveRun)
  | write (i : Nat) (failure : Option Nat)

/-- A main-loop callback, when the main thread is free to run it. -/
def whenIdle (s : Session) (t : Session) : Option Session := if s.main = .idle then some t else none

def session (lib : Arithmetic) (numerals : Numerals) : Machine Session SessionAction where
  step s
    | .ingest snapshot => whenIdle s {s with history := lsmAppHistoryIngest lib s.history snapshot}
    | .readFile walk failed =>
      match s.load with
      | .reading => some {s with load := .finished (loadOutcome numerals walk failed s.persistence.file)}
      | _ => none
    | .loadComplete run save =>
      match s.load with
      | .finished outcome => whenIdle s (historyLoadComplete lib s outcome run save)
      | _ => none
    | .save save => whenIdle s (lsmHistorySave s save)
    | .saveSync save => whenIdle s (lsmHistorySaveSync s save)
    | .reset save => whenIdle s (lsmHistorySave {s with history := historyClear s.history} save)
    | .saveComplete save =>
      match s.worker.bind fun i => s.persistence.calls[i]? with
      | some ⟨request, .returned failure written⟩ => whenIdle s (historySaveComplete s request failure written save)
      | _ => none
    | .syncComplete =>
      match s.main with
      | .saving i closing =>
        match s.persistence.calls[i]? with
        | some ⟨request, .returned failure written⟩ =>
          some (History.syncComplete s request failure written closing)
        | _ => none
      | _ => none
    | .destroy save => whenIdle s (lsmHistoryDestroy s save)
    | .write i failure => (advance numerals s.persistence i failure).map fun persistence => {s with persistence}

/-- What a step can do. -/
inductive Happens (lib : Arithmetic) (numerals : Numerals) (s : Session) : SessionAction → Session → Prop where
  | ingest (snapshot : Snapshot) (hidle : s.main = .idle) :
    Happens lib numerals s (.ingest snapshot) {s with history := lsmAppHistoryIngest lib s.history snapshot}
  | readFile (walk : Walk LsmHistoryEntry) (failed : Bool) (hreading : s.load = .reading) :
    Happens lib numerals s (.readFile walk failed)
      {s with load := .finished (loadOutcome numerals walk failed s.persistence.file)}
  | loadComplete (outcome : LoadOutcome) (run : MergeRun) (save : SaveRun) (hidle : s.main = .idle)
    (hload : s.load = .finished outcome) :
    Happens lib numerals s (.loadComplete run save) (historyLoadComplete lib s outcome run save)
  | save (save : SaveRun) (hidle : s.main = .idle) : Happens lib numerals s (.save save) (lsmHistorySave s save)
  | saveSync (save : SaveRun) (hidle : s.main = .idle) :
    Happens lib numerals s (.saveSync save) (lsmHistorySaveSync s save)
  | reset (save : SaveRun) (hidle : s.main = .idle) :
    Happens lib numerals s (.reset save) (lsmHistorySave {s with history := historyClear s.history} save)
  | saveComplete (i : Nat) (request : LsmHistorySaveRequest) (failure : Nat) (written : Bool) (save : SaveRun)
    (hidle : s.main = .idle) (hcall : s.persistence.calls[i]? = some ⟨request, .returned failure written⟩) :
    Happens lib numerals s (.saveComplete save) (historySaveComplete s request failure written save)
  | syncComplete (i : Nat) (request : LsmHistorySaveRequest) (failure : Nat) (written closing : Bool)
    (hsaving : s.main = .saving i closing)
    (hcall : s.persistence.calls[i]? = some ⟨request, .returned failure written⟩) :
    Happens lib numerals s .syncComplete (History.syncComplete s request failure written closing)
  | destroy (save : SaveRun) (hidle : s.main = .idle) :
    Happens lib numerals s (.destroy save) (lsmHistoryDestroy s save)
  | write (i : Nat) (failure : Option Nat) (persistence : Persistence)
    (hadvance : advance numerals s.persistence i failure = some persistence) :
    Happens lib numerals s (.write i failure) {s with persistence}

theorem whenIdle_eq_some {s t u : Session} (h : whenIdle s t = some u) : s.main = .idle ∧ t = u := by
  unfold whenIdle at h
  split at h
  · rename_i hidle
    exact ⟨hidle, Option.some.inj h⟩
  · cases h

theorem session_step {lib : Arithmetic} {numerals : Numerals} {s t : Session} {a : SessionAction}
    (h : (session lib numerals).step s a = some t) : Happens lib numerals s a t := by
  cases a with
  | ingest snapshot =>
    obtain ⟨hidle, rfl⟩ := whenIdle_eq_some h
    exact .ingest snapshot hidle
  | readFile walk failed =>
    simp only [session] at h
    split at h
    · rename_i hreading
      cases h
      exact .readFile walk failed hreading
    · cases h
  | loadComplete run save =>
    simp only [session] at h
    split at h
    · rename_i outcome hload
      obtain ⟨hidle, rfl⟩ := whenIdle_eq_some h
      exact .loadComplete outcome run save hidle hload
    · cases h
  | save save =>
    obtain ⟨hidle, rfl⟩ := whenIdle_eq_some h
    exact .save save hidle
  | saveSync save =>
    obtain ⟨hidle, rfl⟩ := whenIdle_eq_some h
    exact .saveSync save hidle
  | reset save =>
    obtain ⟨hidle, rfl⟩ := whenIdle_eq_some h
    exact .reset save hidle
  | saveComplete save =>
    simp only [session] at h
    split at h
    · rename_i request failure written hworker
      obtain ⟨i, -, hcall⟩ := Option.bind_eq_some_iff.mp hworker
      obtain ⟨hidle, rfl⟩ := whenIdle_eq_some h
      exact .saveComplete i request failure written save hidle hcall
    · cases h
  | syncComplete =>
    simp only [session] at h
    split at h
    · rename_i i closing hsaving
      split at h
      · rename_i request failure written hcall
        cases h
        exact .syncComplete i request failure written closing hsaving hcall
      · cases h
    · cases h
  | destroy save =>
    obtain ⟨hidle, rfl⟩ := whenIdle_eq_some h
    exact .destroy save hidle
  | write i failure =>
    obtain ⟨persistence, hadvance, rfl⟩ := Option.map_eq_some_iff.mp h
    exact .write i failure persistence hadvance

/-! ### What holds in every session -/

/-- The coordinator is ordered; nothing is saved, and the file is untouched,
until the load has been merged; what the worker found is a load of the file the
session started with; and a synchronous save is of the present generation. -/
structure Base (numerals : Numerals) (initial : Option Text) (s : Session) : Prop where
  ordered : Ordered numerals initial s.persistence
  generations : ∀ r ∈ requests s.persistence, r.generation ≤ s.history.mutationGeneration
  waiting : s.history.loadPending = true → s.persistence.calls = []
  loading : s.main ≠ .closed → s.history.loadPending = false → s.load = .completed
  outcome : s.main ≠ .closed → ∀ outcome, s.load = .finished outcome →
    ∃ walk failed, outcome = loadOutcome numerals walk failed initial
  saving : ∀ i closing, s.main = .saving i closing → s.history.loadPending = false ∧
    ∃ call, s.persistence.calls[i]? = some call ∧ call.request.generation = s.history.mutationGeneration

section
variable {lib : Arithmetic} {numerals : Numerals} {initial : Option Text} {s t : Session}

theorem Base.start (numerals : Numerals) (file : Option Text) : Base numerals file (.start file) where
  ordered := .init numerals file
  generations r hr := absurd hr List.not_mem_nil
  waiting _ := rfl
  loading _ h := absurd h (by simp [Session.start])
  outcome _ outcome h := absurd h (by simp [Session.start])
  saving i closing h := absurd h (by simp [Session.start])

/-- Before the merge the file is the one the session started with. -/
theorem Base.file (h : Base numerals initial s) (hpending : s.history.loadPending = true) :
    s.persistence.file = initial := by
  rcases h.ordered.content with ⟨-, hfile⟩ | ⟨w, output, hlast, -⟩
  · exact hfile
  · obtain ⟨c, hc, -⟩ := h.ordered.writers w (List.mem_of_getLast? hlast)
    rw [h.waiting hpending] at hc
    exact absurd hc (by simp)

/-- A load that is not merged yet is pending. -/
theorem Base.pending (h : Base numerals initial s) (hopen : s.main ≠ .closed) (hload : s.load ≠ .completed) :
    s.history.loadPending = true := by
  by_contra hnot
  exact hload (h.loading hopen (by simpa using hnot))

/-- A callback that changes the history, but neither the load nor back in time. -/
theorem Base.setHistory (h : Base numerals initial s) (hidle : s.main = .idle) (history : LsmHistoryState)
    (hload : history.loadPending = s.history.loadPending)
    (hgeneration : s.history.mutationGeneration ≤ history.mutationGeneration) :
    Base numerals initial {s with history} where
  ordered := h.ordered
  generations r hr := Nat.le_trans (h.generations r hr) hgeneration
  waiting hpending := h.waiting (hload.symm.trans hpending)
  loading hopen hpending := h.loading hopen (hload.symm.trans hpending)
  outcome := h.outcome
  saving i closing hsaving := absurd (hidle.symm.trans hsaving) (by simp)

theorem Base.setWorker (h : Base numerals initial s) (worker : Option Nat) : Base numerals initial {s with worker} :=
  ⟨h.ordered, h.generations, h.waiting, h.loading, h.outcome, h.saving⟩

theorem mem_requests_schedule {walk : Walk LsmHistoryEntry} {r : LsmHistorySaveRequest}
    (hr : r ∈ requests (schedule walk s)) :
    r ∈ requests s.persistence ∨ r = historySaveRequestCreate walk s.history := by
  simpa [schedule] using hr

/-- A save is scheduled, by a worker or by the main thread. -/
theorem Base.schedule (h : Base numerals initial s) (hidle : s.main = .idle) (hloaded : s.history.loadPending = false)
    (walk : Walk LsmHistoryEntry) (history : LsmHistoryState)
    (hload : history.loadPending = s.history.loadPending)
    (hgeneration : history.mutationGeneration = s.history.mutationGeneration) (worker : Option Nat)
    {main : MainThread} (hmain : main = .idle ∨ ∃ closing, main = .saving s.persistence.calls.length closing) :
    Base numerals initial {s with history, persistence := History.schedule walk s, worker, main} where
  ordered := (h.ordered.note _).begin _
  generations r hr := by
    show r.generation ≤ history.mutationGeneration
    rw [hgeneration]
    rcases mem_requests_schedule hr with hr | rfl
    · exact h.generations r hr
    · exact Nat.le_refl _
  waiting hpending := absurd (hload.symm.trans hpending) (by simp [hloaded])
  loading _ _ := h.loading (by simp [hidle]) hloaded
  outcome _ := h.outcome (by simp [hidle])
  saving i closing hsaving := by
    refine ⟨hload.trans hloaded, ?_⟩
    rcases hmain with hmain | ⟨closing', hmain⟩
    · exact absurd (hmain.symm.trans hsaving) (by simp)
    · have hindex : i = s.persistence.calls.length := by
        have := hsaving.symm.trans hmain
        simp only [MainThread.saving.injEq] at this
        exact this.1
      refine ⟨⟨historySaveRequestCreate walk s.history, .entered⟩, ?_, hgeneration.symm⟩
      simp [History.schedule, beginWrite, noteScheduled, hindex]

/-- The three things `lsm_history_save` may do. -/
theorem lsmHistorySave_cases (s : Session) (save : SaveRun) :
    lsmHistorySave s save = s ∨
    lsmHistorySave s save = {s with history := {s.history with saveAgain := true}} ∨
    s.history.dirty = true ∧ s.history.loadPending = false ∧ s.history.savePending = false ∧
      lsmHistorySave s save = {s with
        history := {s.history with savePending := true}
        persistence := History.schedule save.walk s
        worker := some s.persistence.calls.length} := by
  unfold lsmHistorySave
  by_cases hdirty : s.history.dirty = false
  · rw [if_pos hdirty]
    exact Or.inl rfl
  · rw [if_neg hdirty]
    by_cases hpending : s.history.loadPending = true ∨ s.history.savePending = true
    · rw [if_pos hpending]
      exact Or.inr (Or.inl rfl)
    · rw [if_neg hpending]
      simp only [not_or, Bool.not_eq_true] at hpending
      cases save.allocated with
      | false => exact Or.inl rfl
      | true => exact Or.inr (Or.inr ⟨by simpa using hdirty, hpending.1, hpending.2, rfl⟩)

/-- The three things `lsm_history_save` may do without a window. -/
theorem lsmHistorySaveSync_cases (s : Session) (save : SaveRun) :
    lsmHistorySaveSync s save = s ∨
    lsmHistorySaveSync s save = {s with history := {s.history with saveAgain := true}} ∨
    s.history.dirty = true ∧ s.history.loadPending = false ∧
      lsmHistorySaveSync s save = {s with
        persistence := History.schedule save.walk s
        main := .saving s.persistence.calls.length false} := by
  unfold lsmHistorySaveSync
  by_cases hdirty : s.history.dirty = false
  · rw [if_pos hdirty]
    exact Or.inl rfl
  · rw [if_neg hdirty]
    by_cases hpending : s.history.loadPending = true
    · rw [if_pos hpending]
      exact Or.inr (Or.inl rfl)
    · rw [if_neg hpending]
      cases save.allocated with
      | false => exact Or.inl rfl
      | true => exact Or.inr (Or.inr ⟨by simpa using hdirty, by simpa using hpending, rfl⟩)

/-- Shutting down, at once or after a last save. -/
theorem lsmHistoryDestroy_cases (s : Session) (save : SaveRun) :
    lsmHistoryDestroy s save = historyClose s ∨
    s.history.dirty = true ∧ s.history.loadPending = false ∧
      lsmHistoryDestroy s save = {s with
        persistence := History.schedule save.walk s
        main := .saving s.persistence.calls.length true} := by
  unfold lsmHistoryDestroy
  by_cases hsave : s.history.dirty = true ∧ s.history.loadPending = false ∧ save.allocated = true
  · rw [if_pos hsave]
    exact Or.inr ⟨hsave.1, hsave.2.1, rfl⟩
  · rw [if_neg hsave]
    exact Or.inl rfl

theorem Base.save (h : Base numerals initial s) (hidle : s.main = .idle) (save : SaveRun) :
    Base numerals initial (lsmHistorySave s save) := by
  rcases lsmHistorySave_cases s save with hsame | hagain | ⟨-, hloaded, -, hscheduled⟩
  · rw [hsame]
    exact h
  · rw [hagain]
    exact h.setHistory hidle _ rfl (Nat.le_refl _)
  · rw [hscheduled]
    exact h.schedule hidle hloaded save.walk {s.history with savePending := true} rfl rfl
      (some s.persistence.calls.length) (Or.inl hidle)

theorem Base.saveIfAgain (h : Base numerals initial s) (hidle : s.main = .idle) (save : SaveRun) :
    Base numerals initial (saveIfAgain s save) := by
  unfold History.saveIfAgain
  split
  · exact (h.setHistory hidle {s.history with saveAgain := false} rfl (Nat.le_refl _)).save hidle save
  · exact h

theorem le_markDirty (h : LsmHistoryState) : h.mutationGeneration ≤ (historyMarkDirty h).mutationGeneration := by
  simp only [historyMarkDirty]
  split <;> omega

theorem mergeOutcome_frame (lib : Arithmetic) (history : LsmHistoryState) (outcome : LoadOutcome) (run : MergeRun) :
    (mergeOutcome lib history outcome run).loadPending = false ∧
    history.mutationGeneration ≤ (mergeOutcome lib history outcome run).mutationGeneration := by
  cases outcome with
  | failed => exact ⟨rfl, Nat.le_refl _⟩
  | absent => exact ⟨rfl, Nat.le_refl _⟩
  | loaded result =>
    simp only [mergeOutcome]
    rw [historyMergeLoaded_frame]
    refine ⟨rfl, ?_⟩
    show _ ≤ if _ then _ else _
    split
    · exact le_markDirty {history with loadPending := false}
    · exact Nat.le_refl _

theorem Base.merge (h : Base numerals initial s) (hidle : s.main = .idle) (outcome : LoadOutcome) (run : MergeRun) :
    Base numerals initial {s with history := mergeOutcome lib s.history outcome run, load := .completed} := by
  obtain ⟨hdone, hgeneration⟩ := mergeOutcome_frame lib s.history outcome run
  refine ⟨h.ordered, ?_, ?_, fun _ _ => rfl, ?_, ?_⟩
  · intro r hr
    exact Nat.le_trans (h.generations r hr) hgeneration
  · intro hstill
    exact absurd (hdone.symm.trans hstill) (by simp)
  · intro _ outcome hfinished
    cases hfinished
  · intro i closing hsaving
    exact absurd (hidle.symm.trans hsaving) (by simp)

theorem Base.close (h : Base numerals initial s) : Base numerals initial (historyClose s) where
  ordered := h.ordered
  generations := h.generations
  waiting hpending := absurd hpending (by simp [historyClose])
  loading hopen := absurd rfl hopen
  outcome hopen := absurd rfl hopen
  saving i closing hsaving := absurd hsaving (by simp [historyClose])

/-- The end of a synchronous save, of whichever kind. -/
theorem Base.syncComplete (h : Base numerals initial s) {i : Nat} {closing : Bool} (hsaving : s.main = .saving i closing)
    (request : LsmHistorySaveRequest) (failure : Nat) (written closes : Bool) :
    Base numerals initial (History.syncComplete s request failure written closes) := by
  have hbase : Base numerals initial {s with
      history := {s.history with
        dirty := if failure = 0 ∧ (written = true ∨ request.generation ≤ s.persistence.latestWritten) then false
          else s.history.dirty}
      main := .idle} :=
    ⟨h.ordered, h.generations, h.waiting, fun _ => h.loading (by simp [hsaving]),
      fun _ => h.outcome (by simp [hsaving]), fun i closing hno => absurd hno (by simp)⟩
  unfold History.syncComplete
  dsimp only
  split
  · exact hbase.close
  · exact hbase

theorem Base.step (h : Base numerals initial s) {a : SessionAction}
    (hstep : (session lib numerals).step s a = some t) : Base numerals initial t := by
  cases session_step hstep with
  | ingest snapshot hidle =>
    apply h.setHistory hidle (lsmAppHistoryIngest lib s.history snapshot)
    · rw [lsmAppHistoryIngest_frame]
    · rw [lsmAppHistoryIngest_frame]
      show _ ≤ if _ then _ else _
      split
      · exact le_markDirty s.history
      · exact Nat.le_refl _
  | readFile walk failed hreading =>
    refine ⟨h.ordered, h.generations, h.waiting, ?_, ?_, h.saving⟩
    · intro hopen hloaded
      have := h.loading hopen hloaded
      rw [hreading] at this
      cases this
    · intro hopen outcome hfinished
      cases hfinished
      rw [h.file (h.pending hopen (by simp [hreading]))]
      exact ⟨walk, failed, rfl⟩
  | loadComplete outcome run save hidle hload => exact (h.merge hidle outcome run).saveIfAgain hidle save
  | save save hidle => exact h.save hidle save
  | saveSync save hidle =>
    rcases lsmHistorySaveSync_cases s save with hsame | hagain | ⟨-, hloaded, hscheduled⟩
    · rw [hsame]
      exact h
    · rw [hagain]
      exact h.setHistory hidle _ rfl (Nat.le_refl _)
    · rw [hscheduled]
      exact h.schedule hidle hloaded save.walk s.history rfl rfl s.worker (Or.inr ⟨false, rfl⟩)
  | reset save hidle =>
    exact (h.setHistory hidle (historyClear s.history) rfl (le_markDirty _)).save hidle save
  | saveComplete i request failure written save hidle hcall =>
    have hbase := h.setHistory hidle {s.history with
      savePending := false
      dirty := if failure = 0 ∧ written = true ∧ request.generation = s.history.mutationGeneration then false
        else s.history.dirty} rfl (Nat.le_refl _)
    exact (hbase.setWorker none).saveIfAgain hidle save
  | syncComplete i request failure written closing hsaving hcall => exact h.syncComplete hsaving request failure written closing
  | destroy save hidle =>
    rcases lsmHistoryDestroy_cases s save with hclosed | ⟨-, hloaded, hscheduled⟩
    · rw [hclosed]
      exact h.close
    · rw [hscheduled]
      exact h.schedule hidle hloaded save.walk s.history rfl rfl s.worker (Or.inr ⟨true, rfl⟩)
  | write i failure persistence hadvance =>
    refine ⟨h.ordered.advance hadvance, ?_, ?_, h.loading, h.outcome, ?_⟩
    · show ∀ r ∈ requests persistence, _
      rw [advance_requests hadvance]
      exact h.generations
    · intro hpending
      have hnone := h.waiting hpending
      simp [advance, hnone] at hadvance
    · intro j closing hsaving
      obtain ⟨hloaded, call, hcall, hgeneration⟩ := h.saving j closing hsaving
      refine ⟨hloaded, ?_⟩
      have hmap : (requests persistence)[j]? = some call.request := by
        rw [advance_requests hadvance, requests, List.getElem?_map, hcall]
        rfl
      rw [requests, List.getElem?_map, Option.map_eq_some_iff] at hmap
      obtain ⟨c, hc, hrequest⟩ := hmap
      exact ⟨c, hc, by rw [hrequest]; exact hgeneration⟩

end

end SystemMonitor.History
