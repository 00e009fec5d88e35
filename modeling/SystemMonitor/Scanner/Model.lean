import SystemMonitor.Common
import SystemMonitor.Lib.Machine

/-! The process scanner: a worker that scans on request, and a main loop that is
told when a result is ready.

Requests coalesce into one pending set of flags. A successful scan replaces the
completed list and, unless one is already outstanding, queues an idle dispatch;
the dispatch reads the registered callback under the mutex and calls it outside.
Nobody joins the worker: the application, the worker and every queued dispatch
hold a reference, and whoever lets go last frees the scanner.

Each critical section is one action, and so is each thing done outside of one
(queueing the idle source, calling the callback, letting go of a reference). -/
namespace SystemMonitor.Scanner
open Lib

/-- A list that a scan has allocated, numbered so that no two are the same object. -/
structure Listing (ρ : Type) where
  scan : Nat
  processes : List ρ
  deriving DecidableEq

/-- `γ` is a callback together with its data. -/
structure LsmProcessScanner (ρ γ : Type) where
  completed : Option (Listing ρ)
  completedCount : Nat
  requestedFlags : UInt32
  activeFlags : UInt32
  references : Nat
  readyCallback : Option γ
  requestPending : Bool
  scanInProgress : Bool
  resultReady : Bool
  readyDispatchPending : Bool
  stopRequested : Bool

/-- Where `scanner_thread_main` stands. `blocked`: inside `pthread_cond_wait`,
with or without a wake-up on its way. -/
inductive Worker where
  | looping
  | blocked (woken : Bool)
  | scanning (flags : UInt32)
  | queueing
  | leaving
  | exited
  deriving DecidableEq

/-- What the application still does with the scanner. -/
inductive Application where
  | inUse
  | destroying
  | released
  deriving DecidableEq

/-- An idle source, from `g_idle_add_full` to its destroy notify. `entered`: it
has left its critical section with this callback. -/
inductive Dispatch (γ : Type) where
  | queued
  | entered (callback : Option γ)
  | returned
  | destroyed
  deriving DecidableEq

structure State (ρ γ : Type) where
  scanner : LsmProcessScanner ρ γ
  worker : Worker := .looping
  application : Application := .inUse
  /-- Calls of `set_ready_callback` that are about to queue a dispatch. -/
  callers : Nat := 0
  dispatches : List (Dispatch γ) := []
  scans : Nat := 0
  freed : Bool := false

def lsmProcessScanExecutable : UInt32 := 1

variable {ρ γ : Type}

/-- A successful `lsm_process_scanner_create`: one reference for the application,
one for the worker, and a first request. -/
def lsmProcessScannerCreate : State ρ γ where
  scanner :=
    { completed := none
      completedCount := 0
      requestedFlags := lsmProcessScanExecutable
      activeFlags := 0
      references := 2
      readyCallback := none
      requestPending := true
      scanInProgress := false
      resultReady := false
      readyDispatchPending := false
      stopRequested := false }

def scannerRetain (scanner : LsmProcessScanner ρ γ) : LsmProcessScanner ρ γ :=
  {scanner with references := scanner.references + 1}

/-- Whoever takes the last reference away frees the scanner. -/
def scannerRelease (s : State ρ γ) : State ρ γ :=
  {s with
    scanner := {s.scanner with references := s.scanner.references - 1}
    freed := s.freed || s.scanner.references == 1}

/-- `pthread_cond_signal`, with one possible waiter. -/
def Worker.signal : Worker → Worker
  | .blocked _ => .blocked true
  | worker => worker

/-! ### The worker -/

/-- The head of the loop, the condition tested under the mutex. -/
def scannerThreadNext (s : State ρ γ) : State ρ γ :=
  if !s.scanner.requestPending && !s.scanner.stopRequested then {s with worker := .blocked false}
  else if s.scanner.stopRequested then {s with worker := .leaving}
  else {s with
    worker := .scanning s.scanner.requestedFlags
    scanner := {s.scanner with
      activeFlags := s.scanner.requestedFlags
      requestPending := false
      scanInProgress := true}}

/-- The list becomes the completed one, and the main loop is to be told unless it
is about to be anyway. -/
def publish (s : State ρ γ) (processes : List ρ) : State ρ γ :=
  let scanner : LsmProcessScanner ρ γ :=
    {s.scanner with
      scanInProgress := false
      completed := some ⟨s.scans, processes⟩
      completedCount := processes.length
      resultReady := true}
  if scanner.readyCallback.isSome && !scanner.readyDispatchPending then
    {s with
      worker := .queueing
      scanner := scannerRetain {scanner with readyDispatchPending := true}
      scans := s.scans + 1}
  else {s with worker := .looping, scanner, scans := s.scans + 1}

/-- The end of a scan; `none` when it failed. -/
def scannerThreadFinish (s : State ρ γ) (processes : Option (List ρ)) : State ρ γ :=
  if s.scanner.stopRequested then {s with worker := .leaving, scanner := {s.scanner with scanInProgress := false}}
  else match processes with
    | some processes => publish s processes
    | none => {s with worker := .looping, scanner := {s.scanner with scanInProgress := false}}

/-! ### The main loop -/

def scannerQueueReadyDispatch (s : State ρ γ) : State ρ γ := {s with dispatches := s.dispatches ++ [.queued]}

/-- The critical section of `scanner_ready_dispatch`. -/
def scannerReadyDispatch (s : State ρ γ) (i : Nat) : State ρ γ :=
  {s with
    scanner := {s.scanner with readyDispatchPending := false}
    dispatches := s.dispatches.set i
      (.entered (if s.scanner.stopRequested then none else s.scanner.readyCallback))}

def scannerReadyDispatchDestroy (s : State ρ γ) (i : Nat) : State ρ γ :=
  scannerRelease {s with dispatches := s.dispatches.set i .destroyed}

/-! ### The application -/

def lsmProcessScannerSetReadyCallback (s : State ρ γ) (callback : Option γ) : State ρ γ :=
  if s.scanner.stopRequested then s
  else
    let scanner : LsmProcessScanner ρ γ := {s.scanner with readyCallback := callback}
    if callback.isSome && scanner.resultReady && !scanner.readyDispatchPending then
      {s with scanner := scannerRetain {scanner with readyDispatchPending := true}, callers := s.callers + 1}
    else {s with scanner}

/-- With what the call returns. -/
def lsmProcessScannerRequest (s : State ρ γ) (scanFlags : UInt32) : State ρ γ × Bool :=
  if s.scanner.stopRequested then (s, false)
  else if s.scanner.scanInProgress then
    -- The scan in flight satisfies an equal request, and an older queued one is
    -- then obsolete; a different request is kept for one follow-up scan.
    if scanFlags = s.scanner.activeFlags then ({s with scanner := {s.scanner with requestPending := false}}, true)
    else ({s with scanner := {s.scanner with requestedFlags := scanFlags, requestPending := true}}, true)
  else if s.scanner.requestPending then ({s with scanner := {s.scanner with requestedFlags := scanFlags}}, true)
  else ({s with
    scanner := {s.scanner with requestedFlags := scanFlags, requestPending := true}
    worker := s.worker.signal}, true)

/-- With the list and count the call hands over. -/
def lsmProcessScannerTake (s : State ρ γ) : State ρ γ × Option (Option (Listing ρ) × Nat) :=
  if s.scanner.resultReady then
    ({s with scanner := {s.scanner with completed := none, completedCount := 0, resultReady := false}},
      some (s.scanner.completed, s.scanner.completedCount))
  else (s, none)

/-- The critical section of `lsm_process_scanner_destroy`. -/
def lsmProcessScannerDestroy (s : State ρ γ) : State ρ γ :=
  {s with
    scanner := {s.scanner with stopRequested := true, readyCallback := none, requestPending := false}
    worker := s.worker.signal
    application := .destroying}

/-! ### The machine -/

inductive Action (ρ γ : Type) where
  | setReadyCallback (callback : Option γ)
  | callerQueues
  | request (scanFlags : UInt32)
  | take
  | destroy
  | applicationReleases
  | next
  | finish (processes : Option (List ρ))
  | workerQueues
  | workerReleases
  | dispatch (i : Nat)
  | callback (i : Nat)
  | destroySource (i : Nat)
  /-- The source goes without having run. -/
  | discardSource (i : Nat)

/-- A call the application makes while the scanner is its own. -/
def whileUsing (s t : State ρ γ) : Option (State ρ γ) := if s.application = .inUse then some t else none

/-- What the main loop does to a source that stands here. -/
def atDispatch (s : State ρ γ) (i : Nat) (phase : Dispatch γ → Bool) (t : State ρ γ) : Option (State ρ γ) :=
  match s.dispatches[i]? with
  | some d => if phase d then some t else none
  | none => none

def Dispatch.isQueued : Dispatch γ → Bool
  | .queued => true
  | _ => false

def Dispatch.isEntered : Dispatch γ → Bool
  | .entered _ => true
  | _ => false

def Dispatch.isReturned : Dispatch γ → Bool
  | .returned => true
  | _ => false

def step (s : State ρ γ) : Action ρ γ → Option (State ρ γ)
  | .setReadyCallback callback => whileUsing s (lsmProcessScannerSetReadyCallback s callback)
  | .callerQueues => if 0 < s.callers then some (scannerQueueReadyDispatch {s with callers := s.callers - 1}) else none
  | .request scanFlags => whileUsing s (lsmProcessScannerRequest s scanFlags).1
  | .take => whileUsing s (lsmProcessScannerTake s).1
  | .destroy => whileUsing s (lsmProcessScannerDestroy s)
  | .applicationReleases =>
    if s.application = .destroying then some (scannerRelease {s with application := .released}) else none
  | .next =>
    match s.worker with
    -- A wait may also end without a wake-up.
    | .looping | .blocked _ => some (scannerThreadNext s)
    | _ => none
  | .finish processes =>
    match s.worker with
    | .scanning _ => some (scannerThreadFinish s processes)
    | _ => none
  | .workerQueues =>
    if s.worker = .queueing then some (scannerQueueReadyDispatch {s with worker := .looping}) else none
  | .workerReleases => if s.worker = .leaving then some (scannerRelease {s with worker := .exited}) else none
  | .dispatch i => atDispatch s i Dispatch.isQueued (scannerReadyDispatch s i)
  | .callback i => atDispatch s i Dispatch.isEntered {s with dispatches := s.dispatches.set i .returned}
  | .destroySource i => atDispatch s i Dispatch.isReturned (scannerReadyDispatchDestroy s i)
  | .discardSource i => atDispatch s i Dispatch.isQueued (scannerReadyDispatchDestroy s i)

def machine : Machine (State ρ γ) (Action ρ γ) := ⟨step⟩

/-- What a step can do, and who must be there to do it. -/
inductive Happens (s : State ρ γ) : Action ρ γ → State ρ γ → Prop where
  | setReadyCallback (callback : Option γ) (huser : s.application = .inUse) :
    Happens s (.setReadyCallback callback) (lsmProcessScannerSetReadyCallback s callback)
  | callerQueues (hcaller : 0 < s.callers) :
    Happens s .callerQueues (scannerQueueReadyDispatch {s with callers := s.callers - 1})
  | request (scanFlags : UInt32) (huser : s.application = .inUse) :
    Happens s (.request scanFlags) (lsmProcessScannerRequest s scanFlags).1
  | take (huser : s.application = .inUse) : Happens s .take (lsmProcessScannerTake s).1
  | destroy (huser : s.application = .inUse) : Happens s .destroy (lsmProcessScannerDestroy s)
  | applicationReleases (hdestroying : s.application = .destroying) :
    Happens s .applicationReleases (scannerRelease {s with application := .released})
  | next (hworker : s.worker = .looping ∨ ∃ woken, s.worker = .blocked woken) :
    Happens s .next (scannerThreadNext s)
  | finish (processes : Option (List ρ)) (flags : UInt32) (hworker : s.worker = .scanning flags) :
    Happens s (.finish processes) (scannerThreadFinish s processes)
  | workerQueues (hworker : s.worker = .queueing) :
    Happens s .workerQueues (scannerQueueReadyDispatch {s with worker := .looping})
  | workerReleases (hworker : s.worker = .leaving) :
    Happens s .workerReleases (scannerRelease {s with worker := .exited})
  | dispatch (i : Nat) (hsource : s.dispatches[i]? = some .queued) :
    Happens s (.dispatch i) (scannerReadyDispatch s i)
  | callback (i : Nat) (callback : Option γ) (hsource : s.dispatches[i]? = some (.entered callback)) :
    Happens s (.callback i) {s with dispatches := s.dispatches.set i .returned}
  | destroySource (i : Nat) (hsource : s.dispatches[i]? = some .returned) :
    Happens s (.destroySource i) (scannerReadyDispatchDestroy s i)
  | discardSource (i : Nat) (hsource : s.dispatches[i]? = some .queued) :
    Happens s (.discardSource i) (scannerReadyDispatchDestroy s i)

theorem whileUsing_eq_some {s t u : State ρ γ} (h : whileUsing s t = some u) : s.application = .inUse ∧ t = u := by
  unfold whileUsing at h
  split at h
  · rename_i huser
    exact ⟨huser, Option.some.inj h⟩
  · cases h

theorem atDispatch_eq_some {s t u : State ρ γ} {i : Nat} {phase : Dispatch γ → Bool}
    (h : atDispatch s i phase t = some u) : (∃ d, s.dispatches[i]? = some d ∧ phase d = true) ∧ t = u := by
  unfold atDispatch at h
  split at h
  · rename_i d hd
    split at h
    · rename_i hphase
      exact ⟨⟨d, hd, hphase⟩, Option.some.inj h⟩
    · cases h
  · cases h

theorem Dispatch.eq_queued {d : Dispatch γ} (h : d.isQueued = true) : d = .queued := by
  cases d with
  | queued => rfl
  | entered callback => cases h
  | returned => cases h
  | destroyed => cases h

theorem Dispatch.eq_entered {d : Dispatch γ} (h : d.isEntered = true) : ∃ callback, d = .entered callback := by
  cases d with
  | entered callback => exact ⟨callback, rfl⟩
  | queued => cases h
  | returned => cases h
  | destroyed => cases h

theorem Dispatch.eq_returned {d : Dispatch γ} (h : d.isReturned = true) : d = .returned := by
  cases d with
  | returned => rfl
  | queued => cases h
  | entered callback => cases h
  | destroyed => cases h

theorem machine_step {s t : State ρ γ} {a : Action ρ γ} (h : machine.step s a = some t) : Happens s a t := by
  cases a with
  | setReadyCallback callback =>
    obtain ⟨huser, rfl⟩ := whileUsing_eq_some h
    exact .setReadyCallback callback huser
  | callerQueues =>
    simp only [machine, step] at h
    split at h
    · rename_i hcaller
      cases h
      exact .callerQueues hcaller
    · cases h
  | request scanFlags =>
    obtain ⟨huser, rfl⟩ := whileUsing_eq_some h
    exact .request scanFlags huser
  | take =>
    obtain ⟨huser, rfl⟩ := whileUsing_eq_some h
    exact .take huser
  | destroy =>
    obtain ⟨huser, rfl⟩ := whileUsing_eq_some h
    exact .destroy huser
  | applicationReleases =>
    simp only [machine, step] at h
    split at h
    · rename_i hdestroying
      cases h
      exact .applicationReleases hdestroying
    · cases h
  | next =>
    simp only [machine, step] at h
    split at h
    · rename_i hworker
      cases h
      exact .next (Or.inl hworker)
    · rename_i woken hworker
      cases h
      exact .next (Or.inr ⟨woken, hworker⟩)
    · cases h
  | finish processes =>
    simp only [machine, step] at h
    split at h
    · rename_i flags hworker
      cases h
      exact .finish processes flags hworker
    · cases h
  | workerQueues =>
    simp only [machine, step] at h
    split at h
    · rename_i hworker
      cases h
      exact .workerQueues hworker
    · cases h
  | workerReleases =>
    simp only [machine, step] at h
    split at h
    · rename_i hworker
      cases h
      exact .workerReleases hworker
    · cases h
  | dispatch i =>
    obtain ⟨⟨d, hd, hphase⟩, rfl⟩ := atDispatch_eq_some h
    exact .dispatch i (hd.trans (congrArg some (Dispatch.eq_queued hphase)))
  | callback i =>
    obtain ⟨⟨d, hd, hphase⟩, rfl⟩ := atDispatch_eq_some h
    obtain ⟨callback, rfl⟩ := Dispatch.eq_entered hphase
    exact .callback i callback hd
  | destroySource i =>
    obtain ⟨⟨d, hd, hphase⟩, rfl⟩ := atDispatch_eq_some h
    exact .destroySource i (hd.trans (congrArg some (Dispatch.eq_returned hphase)))
  | discardSource i =>
    obtain ⟨⟨d, hd, hphase⟩, rfl⟩ := atDispatch_eq_some h
    exact .discardSource i (hd.trans (congrArg some (Dispatch.eq_queued hphase)))

/-! ### What an operation may change

Everything else stays, so that an invariant of the rest needs no case split. -/

/-- A request writes its flags down and may wake the worker. -/
theorem lsmProcessScannerRequest_frame (s : State ρ γ) (scanFlags : UInt32) :
    ∃ requestedFlags requestPending worker, (worker = s.worker ∨ worker = s.worker.signal) ∧
      (lsmProcessScannerRequest s scanFlags).1 =
        {s with scanner := {s.scanner with requestedFlags, requestPending}, worker} := by
  unfold lsmProcessScannerRequest
  split
  · exact ⟨_, _, _, Or.inl rfl, rfl⟩
  · split
    · split
      · exact ⟨_, _, _, Or.inl rfl, rfl⟩
      · exact ⟨_, _, _, Or.inl rfl, rfl⟩
    · split
      · exact ⟨_, _, _, Or.inl rfl, rfl⟩
      · exact ⟨_, _, _, Or.inr rfl, rfl⟩

/-- The worker moves on, and begins the scan at most. -/
theorem scannerThreadNext_frame (s : State ρ γ) :
    ∃ activeFlags requestPending scanInProgress worker, (worker ≠ .exited ∧ worker ≠ .queueing) ∧
      scannerThreadNext s =
        {s with scanner := {s.scanner with activeFlags, requestPending, scanInProgress}, worker} := by
  unfold scannerThreadNext
  split
  · exact ⟨_, _, _, .blocked false, by simp, rfl⟩
  · split
    · exact ⟨_, _, _, .leaving, by simp, rfl⟩
    · exact ⟨_, _, _, .scanning s.scanner.requestedFlags, by simp, rfl⟩

/-- A callback is refused, registered, or registered with a dispatch promised for the result
that is ready. -/
theorem lsmProcessScannerSetReadyCallback_cases (s : State ρ γ) (callback : Option γ) :
    s.scanner.stopRequested = true ∧ lsmProcessScannerSetReadyCallback s callback = s ∨
    s.scanner.readyDispatchPending = false ∧
      lsmProcessScannerSetReadyCallback s callback =
        {s with
          scanner := scannerRetain {s.scanner with readyCallback := callback, readyDispatchPending := true}
          callers := s.callers + 1} ∨
    (callback.isSome = true → s.scanner.resultReady = true → s.scanner.readyDispatchPending = true) ∧
      lsmProcessScannerSetReadyCallback s callback = {s with scanner := {s.scanner with readyCallback := callback}} := by
  unfold lsmProcessScannerSetReadyCallback
  split
  · rename_i hstopped
    exact Or.inl ⟨hstopped, rfl⟩
  · dsimp only
    split
    · rename_i htell
      simp only [Bool.and_eq_true, Bool.not_eq_true'] at htell
      exact Or.inr (Or.inl ⟨htell.2, rfl⟩)
    · rename_i hquiet
      refine Or.inr (Or.inr ⟨?_, rfl⟩)
      intro hsome hready
      simpa [hsome, hready] using hquiet

/-- The worker goes on to queue the dispatch it has promised, or back to its loop if one is
promised already or nobody is to be told. -/
theorem publish_frame (s : State ρ γ) (processes : List ρ) :
    ∃ references readyDispatchPending worker,
      (worker = .queueing ∧ references = s.scanner.references + 1 ∧
          s.scanner.readyDispatchPending = false ∧ readyDispatchPending = true ∨
        worker = .looping ∧ references = s.scanner.references ∧
          readyDispatchPending = s.scanner.readyDispatchPending ∧
          (s.scanner.readyCallback.isSome = true → readyDispatchPending = true)) ∧
      publish s processes =
        {s with
          worker
          scanner := {s.scanner with
            references
            readyDispatchPending
            scanInProgress := false
            completed := some ⟨s.scans, processes⟩
            completedCount := processes.length
            resultReady := true}
          scans := s.scans + 1} := by
  unfold publish
  dsimp only
  split
  · rename_i htell
    simp only [Bool.and_eq_true, Bool.not_eq_true'] at htell
    exact ⟨_, _, _, Or.inl ⟨rfl, rfl, htell.2, rfl⟩, rfl⟩
  · rename_i hquiet
    refine ⟨_, _, _, Or.inr ⟨rfl, rfl, rfl, ?_⟩, rfl⟩
    intro hsome
    simpa [hsome] using hquiet

/-- A scan ends with the worker sent on, or with its list published. -/
theorem scannerThreadFinish_cases (s : State ρ γ) (processes : Option (List ρ)) :
    (s.scanner.stopRequested = true ∨ processes = none) ∧
      (∃ worker, (worker = .leaving ∨ worker = .looping) ∧
        scannerThreadFinish s processes =
          {s with worker, scanner := {s.scanner with scanInProgress := false}}) ∨
    ∃ listed, s.scanner.stopRequested = false ∧ processes = some listed ∧
      scannerThreadFinish s processes = publish s listed := by
  unfold scannerThreadFinish
  split
  · rename_i hstopped
    exact Or.inl ⟨Or.inl hstopped, _, Or.inl rfl, rfl⟩
  · rename_i hopen
    cases processes with
    | none => exact Or.inl ⟨Or.inr rfl, _, Or.inr rfl, rfl⟩
    | some listed => exact Or.inr ⟨listed, by simpa using hopen, rfl, rfl⟩

end SystemMonitor.Scanner
