import SystemMonitor.Common
import SystemMonitor.Lib.Slot

/-! The Linux sampler: one worker, one shared sample, three flags.

The worker takes a request under the mutex, collects into the shared sample
outside it, and raises `sampleReady` under it again. An update publishes a ready
sample straight out of the shared buffer and asks for the next one; a topology
request only asks. Each critical section is one action here, and so is each
collector, so a history of actions is a schedule of the two threads at the
granularity the code gives them.

What the hand-off is for is a one-place buffer (`Lib.Slot`): `handoff` says that
every schedule's samples pass through one. -/
namespace SystemMonitor.Monitor
open Lib

def topologyScanIntervalSeconds : ℚ := 5
def batteryUpdateIntervalSeconds : ℚ := 5

/-- The snapshot record. `telemetry` stands for what the collectors fill and
`copy_public_snapshot` copies whole; the two totals are the process scanner's,
which a publication leaves alone. -/
structure LsmMonitor (π : Type) where
  telemetry : π
  processCount : Nat
  threadCount : Nat
  sampleGeneration : Nat
  sampleMonotonicSeconds : ℚ
  deriving DecidableEq

variable {π : Type}

def copyPublicSnapshot (destination source : LsmMonitor π) (preserveProcessTotals : Bool) : LsmMonitor π :=
  {source with
    processCount := if preserveProcessTotals then destination.processCount else source.processCount
    threadCount := if preserveProcessTotals then destination.threadCount else source.threadCount}

structure LsmLinuxMonitorBackendState where
  lastUpdateMonotonic : ℚ
  lastTopologyScanMonotonic : ℚ
  lastBatteryUpdateMonotonic : ℚ
  topologyRefreshRequested : Bool
  topologyRetryPending : Bool
  topologyRetryFailures : Nat
  topologyRetryNotBeforeMonotonic : ℚ

def topologyRetryDelay (failures : Nat) : ℚ :=
  if failures ≤ 1 then 1
  else if failures = 2 then 2
  else if failures = 3 then 4
  else topologyScanIntervalSeconds

/-! ### One native sample -/

/-- What an accepted `sample_once` decides before its collectors run. -/
structure Sampling where
  now : ℚ
  elapsed : ℚ
  refreshTopology : Bool
  refreshBatteries : Bool
  deriving DecidableEq

/-- The head of `sample_once`: refused when the clock is not finite (`none`) or
has not advanced. `due` is Common's `infiltratr_interval_due`. -/
def sampleOnceEnter (due : ℚ → ℚ → ℚ → Bool) (state : LsmLinuxMonitorBackendState) (now : Option ℚ)
    (forceTopology : Bool) : Option (LsmLinuxMonitorBackendState × Sampling) :=
  match now with
  | none => none
  | some now =>
    if now ≤ state.lastUpdateMonotonic then none
    else
      let retryTopology := state.topologyRetryPending && decide (state.topologyRetryNotBeforeMonotonic ≤ now)
      let scheduledTopology := !state.topologyRetryPending &&
        due now state.lastTopologyScanMonotonic topologyScanIntervalSeconds
      some ({state with lastUpdateMonotonic := now},
        { now
          elapsed := now - state.lastUpdateMonotonic
          refreshTopology := forceTopology || retryTopology || scheduledTopology
          refreshBatteries := due now state.lastBatteryUpdateMonotonic batteryUpdateIntervalSeconds })

def nextGeneration (generation : Nat) : Nat :=
  if (generation + 1) % 2 ^ 64 = 0 then 1 else (generation + 1) % 2 ^ 64

/-- The tail of `sample_once`, once every collector has returned. -/
def sampleOnceLeave (state : LsmLinuxMonitorBackendState) (sample : LsmMonitor π) (p : Sampling)
    (storageComplete hardwareComplete : Bool) : LsmLinuxMonitorBackendState × LsmMonitor π :=
  let scheduled : LsmLinuxMonitorBackendState :=
    if p.refreshTopology then
      if storageComplete && hardwareComplete then
        {state with
          lastTopologyScanMonotonic := p.now
          topologyRetryPending := false
          topologyRetryFailures := 0
          topologyRetryNotBeforeMonotonic := 0}
      else
        let failures := if state.topologyRetryFailures < uintMax
          then state.topologyRetryFailures + 1 else state.topologyRetryFailures
        {state with
          topologyRetryFailures := failures
          topologyRetryPending := true
          topologyRetryNotBeforeMonotonic := p.now + topologyRetryDelay failures}
    else state
  (if p.refreshBatteries then {scheduled with lastBatteryUpdateMonotonic := p.now} else scheduled,
    {sample with
      sampleGeneration := nextGeneration sample.sampleGeneration
      sampleMonotonicSeconds := p.now})

/-! ### The two threads -/

structure LsmLinuxSamplerState (π : Type) where
  backend : LsmLinuxMonitorBackendState
  sample : LsmMonitor π
  requestPending : Bool
  sampleInProgress : Bool
  sampleReady : Bool
  stopRequested : Bool

/-- Where `sampler_thread_main` stands. It writes the shared sample while
`initialising` (storage and hardware discovery) and while `sampling`. -/
inductive Worker where
  | initialising
  | waiting
  | entering (forceTopology : Bool)
  | sampling (p : Sampling)
  | returned (sampled : Bool)
  | exited
  deriving DecidableEq

def Worker.writing : Worker → Bool
  | .initialising | .sampling _ => true
  | _ => false

structure State (π : Type) where
  sampler : LsmLinuxSamplerState π
  worker : Worker
  monitor : LsmMonitor π
  /-- `monitor->backend_state` is set: `destroy` clears it. -/
  attached : Bool

/-- A successful `lsm_monitor_platform_init`: the public snapshot is copied and
the first request is pending before the worker exists. -/
def lsmMonitorPlatformInit (now : ℚ) (telemetry : π) : State π :=
  let sample : LsmMonitor π := ⟨telemetry, 0, 0, 0, 0⟩
  { sampler :=
      { backend := ⟨now, now, now, false, false, 0, 0⟩
        sample
        requestPending := true
        sampleInProgress := false
        sampleReady := false
        stopRequested := false }
    worker := .initialising
    monitor := copyPublicSnapshot sample sample false
    attached := true }

def lsmMonitorPlatformUpdate (s : State π) : State π :=
  if !s.attached then s
  else
    let published : State π := if s.sampler.sampleReady then
      {s with
        monitor := copyPublicSnapshot s.monitor s.sampler.sample true
        sampler := {s.sampler with sampleReady := false}} else s
    if !published.sampler.requestPending && !published.sampler.sampleInProgress then
      {published with sampler := {published.sampler with requestPending := true}}
    else published

def lsmMonitorPlatformRequestTopologyRefresh (s : State π) : State π :=
  if !s.attached then s
  else
    let requested : LsmLinuxSamplerState π :=
      {s.sampler with backend := {s.sampler.backend with topologyRefreshRequested := true}}
    -- An unread completed sample is not overwritten: the update that publishes
    -- it wakes the worker with the retained request.
    if !requested.sampleReady && !requested.requestPending && !requested.sampleInProgress then
      {s with sampler := {requested with requestPending := true}}
    else {s with sampler := requested}

def lsmMonitorPlatformDestroy (s : State π) : State π :=
  if s.attached then {s with sampler := {s.sampler with stopRequested := true}, attached := false} else s

inductive Action (π : Type) where
  | update
  | requestTopologyRefresh
  | destroy
  /-- A discovery step or a collector leaves this telemetry in the shared sample. -/
  | collect (telemetry : π)
  | initialised (storageComplete hardwareComplete : Bool)
  | take
  | exit
  | enter (now : Option ℚ)
  | leave (storageComplete hardwareComplete : Bool)
  | complete

/-- The worker's part of a step. -/
def samplerThreadMain (due : ℚ → ℚ → ℚ → Bool) (s : State π) : Worker → Action π → Option (State π)
  | .initialising, .collect telemetry | .sampling _, .collect telemetry =>
    some {s with sampler := {s.sampler with sample := {s.sampler.sample with telemetry}}}
  | .initialising, .initialised storageComplete hardwareComplete =>
    if storageComplete && hardwareComplete then some {s with worker := .waiting}
    else some {s with
      worker := .waiting
      sampler := {s.sampler with backend := {s.sampler.backend with topologyRefreshRequested := true}}}
  | .waiting, .take =>
    if s.sampler.requestPending && !s.sampler.stopRequested then
      some {s with
        worker := .entering s.sampler.backend.topologyRefreshRequested
        sampler := {s.sampler with
          requestPending := false
          sampleInProgress := true
          backend := {s.sampler.backend with topologyRefreshRequested := false}}}
    else none
  | .waiting, .exit => if s.sampler.stopRequested then some {s with worker := .exited} else none
  | .entering forceTopology, .enter now =>
    match sampleOnceEnter due s.sampler.backend now forceTopology with
    | none => some {s with worker := .returned false}
    | some (backend, p) => some {s with worker := .sampling p, sampler := {s.sampler with backend}}
  | .sampling p, .leave storageComplete hardwareComplete =>
    let left := sampleOnceLeave s.sampler.backend s.sampler.sample p storageComplete hardwareComplete
    some {s with
      worker := .returned true
      sampler := {s.sampler with backend := left.1, sample := left.2}}
  | .returned sampled, .complete =>
    some {s with
      worker := .waiting
      sampler := {s.sampler with
        sampleInProgress := false
        sampleReady := if sampled && !s.sampler.stopRequested then true else s.sampler.sampleReady}}
  | _, _ => none

def step (due : ℚ → ℚ → ℚ → Bool) (s : State π) : Action π → Option (State π)
  | .update => some (lsmMonitorPlatformUpdate s)
  | .requestTopologyRefresh => some (lsmMonitorPlatformRequestTopologyRefresh s)
  | .destroy => some (lsmMonitorPlatformDestroy s)
  | a => samplerThreadMain due s s.worker a

def machine (due : ℚ → ℚ → ℚ → Bool) : Machine (State π) (Action π) := ⟨step due⟩

end SystemMonitor.Monitor
