import SystemMonitor.Lib.Machine

/-! The Windows process worker and the calls that start, feed and stop it.

The calls come from one thread; what another thread can see in the middle of one
is a phase of `Caller`. The worker runs `process_worker_main` beside them, each of
its critical sections one action. A stop waits a bounded time for the worker and
leaves everything alive when it runs out, and a later start may stop a worker that
has ended before it launches the next. -/
namespace SystemMonitor.ProcessRuntime
open Lib

/-- A list of processes, with the worker and the scan it comes from. -/
structure Snapshot (π : Type) where
  epoch : Nat
  scan : Nat
  processes : π
  deriving DecidableEq

structure LsmWindowsProcessRuntime (π : Type) where
  processBackend : Bool := false
  /-- The handle, which stays valid after its thread has exited. -/
  processThread : Bool := false
  /-- The handle of the auto-reset event, and whether it is set. -/
  processEvent : Option Bool := none
  processLockInitialised : Bool := false
  processWorkerAbandoned : Bool := false
  processStopRequested : Bool := false
  processRequestPending : Bool := false
  processRequestedFlags : Nat := 0
  processCompleted : Option (Snapshot π) := none
  processCompletedReady : Bool := false

/-- Where `process_worker_main` stands. -/
inductive Phase where
  | creating
  | waiting
  | woken
  | scanning (flags : Nat)
  | leaving
  | exited
  deriving DecidableEq

/-- The thread last created; `Inv.released` is why one place is enough. -/
structure Worker where
  epoch : Nat
  phase : Phase

/-- Where the calling thread stands. A stop made by a start goes on to launch. -/
inductive Caller where
  | idle
  | starting
  | signalling
  | stopping (restart : Bool)
  | joining (restart : Bool)
  deriving DecidableEq

structure State (π : Type) where
  runtime : LsmWindowsProcessRuntime π
  worker : Worker
  caller : Caller
  /-- Scans so far, which tells snapshots apart. -/
  scans : Nat

variable {π : Type}

def init : State π := ⟨{}, ⟨0, .exited⟩, .idle, 0⟩

/-! ### The worker -/

def processWorkerCreate (s : State π) (created : Bool) : State π :=
  {s with
    runtime := {s.runtime with processBackend := created}
    worker := {s.worker with phase := if created then .waiting else .exited}}

def processWorkerLook (s : State π) : State π :=
  if s.runtime.processStopRequested then {s with worker := {s.worker with phase := .leaving}}
  else if !s.runtime.processRequestPending then {s with worker := {s.worker with phase := .waiting}}
  else {s with
    runtime := {s.runtime with processRequestPending := false}
    worker := {s.worker with phase := .scanning s.runtime.processRequestedFlags}}

/-- After `lsm_process_scan`, which leaves no list when it fails. -/
def processWorkerFinish (s : State π) (scanned : Option π) : State π :=
  if s.runtime.processStopRequested then {s with worker := {s.worker with phase := .leaving}, scans := s.scans + 1}
  else
    let waiting : State π := {s with worker := {s.worker with phase := .waiting}, scans := s.scans + 1}
    match scanned with
    | none => waiting
    | some processes =>
      {waiting with runtime := {s.runtime with
        processCompleted := some ⟨s.worker.epoch, s.scans, processes⟩
        processCompletedReady := true}}

def processWorkerDestroy (s : State π) : State π :=
  {s with runtime := {s.runtime with processBackend := false}, worker := {s.worker with phase := .exited}}

/-! ### The calls -/

/-- `exitCodeRead`: `GetExitCodeThread` succeeds. -/
def lsmWindowsProcessRuntimeAvailable (s : State π) (exitCodeRead : Bool) : Bool :=
  !s.runtime.processStopRequested && s.runtime.processThread && s.runtime.processLockInitialised &&
    (exitCodeRead && decide (s.worker.phase ≠ .exited))

/-- Where a successful stop returns to. -/
def stopped (restart : Bool) : Caller := if restart then .starting else .idle

/-- Up to the `SetEvent`. -/
def lsmWindowsProcessRuntimeStop (s : State π) (restart : Bool) : State π :=
  if !s.runtime.processLockInitialised then {s with caller := stopped restart}
  else {s with runtime := {s.runtime with processStopRequested := true}, caller := .stopping restart}

/-- The tail of a stop. -/
def release (s : State π) (restart : Bool) : State π :=
  {s with
    runtime := {s.runtime with
      processEvent := none
      processCompleted := none
      processCompletedReady := false
      processLockInitialised := false}
    caller := stopped restart}

def setEvent (r : LsmWindowsProcessRuntime π) : LsmWindowsProcessRuntime π :=
  {r with processEvent := r.processEvent.map fun _ => true}

/-- After the `SetEvent` of a stop: there may be no thread to wait for. -/
def stopSignalled (s : State π) (restart : Bool) : State π :=
  let signalled : State π := {s with runtime := setEvent s.runtime}
  if s.runtime.processThread then {signalled with caller := .joining restart} else release signalled restart

/-- After the wait for the thread. -/
def stopJoined (s : State π) (restart exited : Bool) : State π :=
  if !exited then {s with runtime := {s.runtime with processWorkerAbandoned := true}, caller := .idle}
  else release {s with runtime := {s.runtime with processThread := false}} restart

/-- Up to the launch, or to the stop of a worker that is not available. -/
def lsmWindowsProcessRuntimeStart (s : State π) (exitCodeRead : Bool) : State π :=
  if !s.runtime.processThread then {s with caller := .starting}
  else if s.runtime.processWorkerAbandoned then s
  else if lsmWindowsProcessRuntimeAvailable s exitCodeRead then s
  else lsmWindowsProcessRuntimeStop s true

inductive Launch where
  | noEvent
  | noThread
  | created
  deriving DecidableEq

/-- The rest of a start, up to its `SetEvent`. -/
def launch (s : State π) : Launch → State π
  | .noEvent => {s with
    runtime := {s.runtime with processEvent := none, processLockInitialised := false}
    caller := .idle}
  | .noThread => {s with
    runtime := {s.runtime with
      processEvent := none
      processLockInitialised := false
      processStopRequested := false
      processWorkerAbandoned := false
      processRequestPending := true
      processRequestedFlags := 0
      processThread := false}
    caller := .idle}
  | .created => {s with
    runtime := {s.runtime with
      processEvent := some false
      processLockInitialised := true
      processStopRequested := false
      processWorkerAbandoned := false
      processRequestPending := true
      processRequestedFlags := 0
      processThread := true}
    worker := ⟨s.worker.epoch + 1, .creating⟩
    caller := .signalling}

/-- Up to the `SetEvent`. -/
def lsmWindowsProcessRuntimeRequest (s : State π) (scanFlags : Nat) : State π :=
  if !s.runtime.processThread || !s.runtime.processLockInitialised then s
  else {s with
    runtime := if s.runtime.processStopRequested then s.runtime else {s.runtime with
      processRequestedFlags := scanFlags
      processRequestPending := true}
    caller := .signalling}

def lsmWindowsProcessRuntimeTake (s : State π) : State π :=
  if !s.runtime.processLockInitialised || !s.runtime.processCompletedReady then s
  else {s with runtime := {s.runtime with processCompleted := none, processCompletedReady := false}}

/-! ### The machine -/

inductive Action (π : Type) where
  | start (exitCodeRead : Bool)
  | launch (outcome : Launch)
  | request (scanFlags : Nat)
  | take
  | stop
  | setEvent
  /-- The wait of a stop ends: on the thread, or on its time. -/
  | join (exited : Bool)
  | create (created : Bool)
  | wake
  | look
  | finish (scanned : Option π)
  | destroy

/-- The calling thread's part of a step. -/
def call (s : State π) : Caller → Action π → Option (State π)
  | .idle, .start exitCodeRead => some (lsmWindowsProcessRuntimeStart s exitCodeRead)
  | .idle, .request scanFlags => some (lsmWindowsProcessRuntimeRequest s scanFlags)
  | .idle, .take => some (lsmWindowsProcessRuntimeTake s)
  | .idle, .stop => some (lsmWindowsProcessRuntimeStop s false)
  | .starting, .launch outcome => some (launch s outcome)
  | .signalling, .setEvent => some {s with runtime := setEvent s.runtime, caller := .idle}
  | .stopping restart, .setEvent => some (stopSignalled s restart)
  | .joining restart, .join exited =>
    if exited = true → s.worker.phase = .exited then some (stopJoined s restart exited) else none
  | _, _ => none

/-- The worker's part of a step. -/
def processWorkerMain (s : State π) : Phase → Action π → Option (State π)
  | .creating, .create created => some (processWorkerCreate s created)
  | .waiting, .wake =>
    if s.runtime.processEvent = some true then
      some {s with
        runtime := {s.runtime with processEvent := some false}
        worker := {s.worker with phase := .woken}}
    else none
  | .woken, .look => some (processWorkerLook s)
  | .scanning _, .finish scanned => some (processWorkerFinish s scanned)
  | .leaving, .destroy => some (processWorkerDestroy s)
  | _, _ => none

def step (s : State π) : Action π → Option (State π)
  | .create created => processWorkerMain s s.worker.phase (.create created)
  | .wake => processWorkerMain s s.worker.phase .wake
  | .look => processWorkerMain s s.worker.phase .look
  | .finish scanned => processWorkerMain s s.worker.phase (.finish scanned)
  | .destroy => processWorkerMain s s.worker.phase .destroy
  | a => call s s.caller a

def machine : Machine (State π) (Action π) := ⟨step⟩

/-- What a step can do, and where the two threads must stand for it. -/
inductive Happens (s : State π) : Action π → State π → Prop where
  | start (exitCodeRead : Bool) (hcaller : s.caller = .idle) :
    Happens s (.start exitCodeRead) (lsmWindowsProcessRuntimeStart s exitCodeRead)
  | launch (outcome : Launch) (hcaller : s.caller = .starting) :
    Happens s (.launch outcome) (ProcessRuntime.launch s outcome)
  | request (scanFlags : Nat) (hcaller : s.caller = .idle) :
    Happens s (.request scanFlags) (lsmWindowsProcessRuntimeRequest s scanFlags)
  | take (hcaller : s.caller = .idle) : Happens s .take (lsmWindowsProcessRuntimeTake s)
  | stop (hcaller : s.caller = .idle) : Happens s .stop (lsmWindowsProcessRuntimeStop s false)
  | signal (hcaller : s.caller = .signalling) :
    Happens s .setEvent {s with runtime := ProcessRuntime.setEvent s.runtime, caller := .idle}
  | stopSignal (restart : Bool) (hcaller : s.caller = .stopping restart) :
    Happens s .setEvent (stopSignalled s restart)
  | join (restart exited : Bool) (hcaller : s.caller = .joining restart)
    (hexited : exited = true → s.worker.phase = .exited) : Happens s (.join exited) (stopJoined s restart exited)
  | create (created : Bool) (hphase : s.worker.phase = .creating) :
    Happens s (.create created) (processWorkerCreate s created)
  | wake (hphase : s.worker.phase = .waiting) (hsignalled : s.runtime.processEvent = some true) :
    Happens s .wake {s with
      runtime := {s.runtime with processEvent := some false}
      worker := {s.worker with phase := .woken}}
  | look (hphase : s.worker.phase = .woken) : Happens s .look (processWorkerLook s)
  | finish (flags : Nat) (scanned : Option π) (hphase : s.worker.phase = .scanning flags) :
    Happens s (.finish scanned) (processWorkerFinish s scanned)
  | destroy (hphase : s.worker.phase = .leaving) : Happens s .destroy (processWorkerDestroy s)

theorem machine_step {s t : State π} {a : Action π} (h : machine.step s a = some t) : Happens s a t := by
  cases a with
  | start exitCodeRead =>
    cases hc : s.caller <;> simp only [machine, step, hc, call, reduceCtorEq] at h
    cases h
    exact .start exitCodeRead hc
  | launch outcome =>
    cases hc : s.caller <;> simp only [machine, step, hc, call, reduceCtorEq] at h
    cases h
    exact .launch outcome hc
  | request scanFlags =>
    cases hc : s.caller <;> simp only [machine, step, hc, call, reduceCtorEq] at h
    cases h
    exact .request scanFlags hc
  | take =>
    cases hc : s.caller <;> simp only [machine, step, hc, call, reduceCtorEq] at h
    cases h
    exact .take hc
  | stop =>
    cases hc : s.caller <;> simp only [machine, step, hc, call, reduceCtorEq] at h
    cases h
    exact .stop hc
  | setEvent =>
    cases hc : s.caller with
    | signalling =>
      simp only [machine, step, hc, call] at h
      cases h
      exact .signal hc
    | stopping restart =>
      simp only [machine, step, hc, call] at h
      cases h
      exact .stopSignal restart hc
    | idle | starting | joining restart => simp only [machine, step, hc, call, reduceCtorEq] at h
  | join exited =>
    cases hc : s.caller <;> simp only [machine, step, hc, call, reduceCtorEq] at h
    split at h
    · rename_i hexited
      cases h
      exact .join _ exited hc hexited
    · cases h
  | create created =>
    cases hp : s.worker.phase <;> simp only [machine, step, hp, processWorkerMain, reduceCtorEq] at h
    cases h
    exact .create created hp
  | wake =>
    cases hp : s.worker.phase <;> simp only [machine, step, hp, processWorkerMain, reduceCtorEq] at h
    split at h
    · rename_i hsignalled
      cases h
      exact .wake hp hsignalled
    · cases h
  | look =>
    cases hp : s.worker.phase <;> simp only [machine, step, hp, processWorkerMain, reduceCtorEq] at h
    cases h
    exact .look hp
  | finish scanned =>
    cases hp : s.worker.phase <;> simp only [machine, step, hp, processWorkerMain, reduceCtorEq] at h
    cases h
    exact .finish _ scanned hp
  | destroy =>
    cases hp : s.worker.phase <;> simp only [machine, step, hp, processWorkerMain, reduceCtorEq] at h
    cases h
    exact .destroy hp

end SystemMonitor.ProcessRuntime
