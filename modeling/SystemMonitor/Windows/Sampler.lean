import SystemMonitor.Monitor.Sampler
import SystemMonitor.Lib.Doorbell

/-! The Windows sampler: the hand-off of the Linux one, over a critical section
and an auto-reset event.

The worker waits on the event, looks at the request under the lock, samples
outside it and completes the sample under it again. A sample reads and clears
the topology flag a second time, in `refresh_topology_and_devices` and without
the lock. Each critical section is one action, and so is each read or write of
what two threads share outside of one. -/
namespace SystemMonitor.Windows
open Lib
open Monitor (LsmMonitor nextGeneration)

def lsmWindowsTopologyRefreshMs : Nat := 30000

structure LsmWindowsMonitorBackendState where
  previousSampleTick : Nat := 0
  lastTopologyTick : Nat := 0
  topologyRefreshRequested : Bool := false
  deriving DecidableEq

structure LsmWindowsSamplerState (π : Type) where
  /-- `request_event`, between a `SetEvent` and the wait it releases. -/
  signalled : Bool
  stopRequested : Bool
  requestPending : Bool
  sampleInProgress : Bool
  sampleReady : Bool
  native : LsmWindowsMonitorBackendState
  sample : LsmMonitor π

/-- What `windows_sample_once` has read so far. -/
structure Sampling where
  now : Nat
  elapsed : ℚ
  forceTopology : Bool
  deriving DecidableEq

/-- Where `windows_sampler_thread` stands. `due` and `refreshing` are inside
`refresh_topology_and_devices`, before and after it has cleared the flag (if it
does), with the tick it has read and whether the sample will count. -/
inductive Worker where
  | waiting
  | woken
  | entering (forceTopology : Bool)
  | collecting (p : Sampling)
  | due (p : Sampling) (tick : Nat) (counts : Bool)
  | refreshing (p : Sampling) (counts : Bool)
  | returned (sampled : Bool)
  | exited
  deriving DecidableEq

/-- Inside `windows_sample_once`, up to the count of the sample. -/
def Worker.writing : Worker → Bool
  | .entering _ | .collecting _ | .due _ _ _ | .refreshing _ _ => true
  | _ => false

structure State (π : Type) where
  sampler : LsmWindowsSamplerState π
  worker : Worker
  /-- Calls that have left their critical section on the way to `SetEvent`. -/
  ringing : Nat
  monitor : LsmMonitor π
  /-- `monitor->backend_state` is set: `destroy` clears it. -/
  attached : Bool

variable {π : Type}

/-! ### The worker -/

/-- After the wait. -/
def samplerThreadLook (s : State π) : State π :=
  if s.sampler.stopRequested then {s with worker := .exited}
  else if !s.sampler.requestPending then {s with worker := .waiting}
  else {s with
    worker := .entering s.sampler.native.topologyRefreshRequested
    sampler := {s.sampler with
      requestPending := false
      sampleInProgress := true
      native := {s.sampler.native with topologyRefreshRequested := false}}}

/-- The head of `windows_sample_once`. -/
def windowsSampleOnceEnter (s : State π) (forceTopology : Bool) (now : Nat) : State π :=
  let previous := s.sampler.native.previousSampleTick
  {s with
    worker := .collecting {
      now
      elapsed := if 0 < previous ∧ previous ≤ now then ((now - previous : Nat) : ℚ) / 1000 else 0
      forceTopology }
    sampler := {s.sampler with native := {s.sampler.native with previousSampleTick := now}}}

/-- `due` of `refresh_topology_and_devices`; ticks are 64-bit and may wrap. -/
def topologyDue (state : LsmWindowsMonitorBackendState) (force : Bool) (now : Nat) : Bool :=
  force || state.topologyRefreshRequested || decide (state.lastTopologyTick = 0) ||
    decide (lsmWindowsTopologyRefreshMs ≤ (now + 2 ^ 64 - state.lastTopologyTick) % 2 ^ 64)

/-- The head of `refresh_topology_and_devices`, once processor and memory are sampled. -/
def refreshTopologyAndDevices (s : State π) (p : Sampling) (tick : Nat) (cpuOk memoryOk : Bool) : State π :=
  if topologyDue s.sampler.native p.forceTopology tick then {s with worker := .due p tick (cpuOk && memoryOk)}
  else {s with worker := .refreshing p (cpuOk && memoryOk)}

/-- What a due call does before it discovers anything. -/
def beginDiscovery (s : State π) (p : Sampling) (tick : Nat) (counts : Bool) : State π :=
  {s with
    worker := .refreshing p counts
    sampler := {s.sampler with
      native := {s.sampler.native with lastTopologyTick := tick, topologyRefreshRequested := false}}}

/-- The tail of `windows_sample_once`. -/
def windowsSampleOnceLeave (s : State π) (p : Sampling) (counts : Bool) : State π :=
  if !counts then {s with worker := .returned false}
  else {s with
    worker := .returned true
    sampler := {s.sampler with sample := {s.sampler.sample with
      sampleGeneration := nextGeneration s.sampler.sample.sampleGeneration
      sampleMonotonicSeconds := (p.now : ℚ) / 1000}}}

def samplerThreadComplete (s : State π) (sampled : Bool) : State π :=
  {s with
    worker := .waiting
    sampler := {s.sampler with
      sampleInProgress := false
      sampleReady := if sampled && !s.sampler.stopRequested then true else s.sampler.sampleReady}}

/-! ### The callers -/

/-- A successful `lsm_monitor_platform_init`, on the way to its `SetEvent`. -/
def lsmMonitorPlatformInit (telemetry : π) : State π :=
  let zero : LsmMonitor π := ⟨telemetry, 0, 0, 0, 0⟩
  { sampler :=
      { signalled := false
        stopRequested := false
        requestPending := true
        sampleInProgress := false
        sampleReady := false
        native := {}
        sample := zero }
    worker := .waiting
    ringing := 1
    monitor := zero
    attached := true }

def publishMonitorSnapshot (destination source : LsmMonitor π) : LsmMonitor π :=
  {source with processCount := destination.processCount, threadCount := destination.threadCount}

def lsmMonitorPlatformUpdate (s : State π) : State π :=
  if !s.attached then s
  else
    let published : State π := if s.sampler.sampleReady then
      {s with
        monitor := publishMonitorSnapshot s.monitor s.sampler.sample
        sampler := {s.sampler with sampleReady := false}} else s
    if !published.sampler.stopRequested && !published.sampler.requestPending &&
        !published.sampler.sampleInProgress then
      {published with
        ringing := published.ringing + 1
        sampler := {published.sampler with requestPending := true}}
    else published

/-- The event is set inside the critical section. -/
def lsmMonitorPlatformRequestTopologyRefresh (s : State π) : State π :=
  if !s.attached then s
  else
    let requested : LsmWindowsSamplerState π :=
      {s.sampler with native := {s.sampler.native with topologyRefreshRequested := true}}
    if !requested.stopRequested then {s with sampler := {requested with requestPending := true, signalled := true}}
    else {s with sampler := requested}

/-- Up to its `SetEvent`. -/
def lsmMonitorPlatformDestroy (s : State π) : State π :=
  if !s.attached then s
  else {s with
    attached := false
    ringing := s.ringing + 1
    sampler := {s.sampler with stopRequested := true, requestPending := false}}

/-! ### The machine -/

inductive Action (π : Type) where
  | update
  | requestTopologyRefresh
  | destroy
  | setEvent
  | wake
  | look
  /-- A collector leaves this telemetry in the shared sample. -/
  | collect (telemetry : π)
  | enter (now : Nat)
  | refreshTopology (tick : Nat) (cpuOk memoryOk : Bool)
  | beginDiscovery
  | leave
  | complete

/-- The worker's part of a step. -/
def windowsSamplerThread (s : State π) : Worker → Action π → Option (State π)
  | .waiting, .wake =>
    if s.sampler.signalled then some {s with worker := .woken, sampler := {s.sampler with signalled := false}} else none
  | .woken, .look => some (samplerThreadLook s)
  | .entering force, .enter now => some (windowsSampleOnceEnter s force now)
  | .collecting p, .refreshTopology tick cpuOk memoryOk => some (refreshTopologyAndDevices s p tick cpuOk memoryOk)
  | .due p tick counts, .beginDiscovery => some (beginDiscovery s p tick counts)
  | .refreshing p counts, .leave => some (windowsSampleOnceLeave s p counts)
  | .returned sampled, .complete => some (samplerThreadComplete s sampled)
  | worker, .collect telemetry =>
    if worker.writing then some {s with sampler := {s.sampler with sample := {s.sampler.sample with telemetry}}}
    else none
  | _, _ => none

def step (s : State π) : Action π → Option (State π)
  | .update => some (lsmMonitorPlatformUpdate s)
  | .requestTopologyRefresh => some (lsmMonitorPlatformRequestTopologyRefresh s)
  | .destroy => some (lsmMonitorPlatformDestroy s)
  | .setEvent =>
    if 0 < s.ringing then some {s with ringing := s.ringing - 1, sampler := {s.sampler with signalled := true}}
    else none
  | a => windowsSamplerThread s s.worker a

def machine : Machine (State π) (Action π) := ⟨step⟩

/-- What a step can do, and where the worker must stand for it. -/
inductive Happens (s : State π) : Action π → State π → Prop where
  | update : Happens s .update (lsmMonitorPlatformUpdate s)
  | requestTopologyRefresh : Happens s .requestTopologyRefresh (lsmMonitorPlatformRequestTopologyRefresh s)
  | destroy : Happens s .destroy (lsmMonitorPlatformDestroy s)
  | setEvent (hringing : 0 < s.ringing) :
    Happens s .setEvent {s with ringing := s.ringing - 1, sampler := {s.sampler with signalled := true}}
  | wake (hworker : s.worker = .waiting) (hsignalled : s.sampler.signalled = true) :
    Happens s .wake {s with worker := .woken, sampler := {s.sampler with signalled := false}}
  | look (hworker : s.worker = .woken) : Happens s .look (samplerThreadLook s)
  | collect (telemetry : π) (hworker : s.worker.writing = true) :
    Happens s (.collect telemetry) {s with sampler := {s.sampler with sample := {s.sampler.sample with telemetry}}}
  | enter (force : Bool) (now : Nat) (hworker : s.worker = .entering force) :
    Happens s (.enter now) (windowsSampleOnceEnter s force now)
  | refreshTopology (p : Sampling) (tick : Nat) (cpuOk memoryOk : Bool) (hworker : s.worker = .collecting p) :
    Happens s (.refreshTopology tick cpuOk memoryOk) (refreshTopologyAndDevices s p tick cpuOk memoryOk)
  | beginDiscovery (p : Sampling) (tick : Nat) (counts : Bool) (hworker : s.worker = .due p tick counts) :
    Happens s .beginDiscovery (Windows.beginDiscovery s p tick counts)
  | leave (p : Sampling) (counts : Bool) (hworker : s.worker = .refreshing p counts) :
    Happens s .leave (windowsSampleOnceLeave s p counts)
  | complete (sampled : Bool) (hworker : s.worker = .returned sampled) :
    Happens s .complete (samplerThreadComplete s sampled)

theorem machine_step {s t : State π} {a : Action π} (h : machine.step s a = some t) : Happens s a t := by
  cases a with
  | update =>
    cases h
    exact .update
  | requestTopologyRefresh =>
    cases h
    exact .requestTopologyRefresh
  | destroy =>
    cases h
    exact .destroy
  | setEvent =>
    simp only [machine, step] at h
    split at h
    · rename_i hringing
      cases h
      exact .setEvent hringing
    · cases h
  | wake =>
    cases hw : s.worker <;> simp only [machine, step, hw, windowsSamplerThread, reduceCtorEq] at h
    split at h
    · rename_i hsignalled
      cases h
      exact .wake hw hsignalled
    · cases h
  | look =>
    cases hw : s.worker <;> simp only [machine, step, hw, windowsSamplerThread, reduceCtorEq] at h
    cases h
    exact .look hw
  | collect telemetry =>
    have hwriting : s.worker.writing = true ∧
        {s with sampler := {s.sampler with sample := {s.sampler.sample with telemetry}}} = t := by
      cases hw : s.worker <;>
        simp_all [machine, step, windowsSamplerThread, Worker.writing]
    obtain ⟨hworker, rfl⟩ := hwriting
    exact .collect telemetry hworker
  | enter now =>
    cases hw : s.worker <;> simp only [machine, step, hw, windowsSamplerThread, reduceCtorEq] at h
    cases h
    exact .enter _ now hw
  | refreshTopology tick cpuOk memoryOk =>
    cases hw : s.worker <;> simp only [machine, step, hw, windowsSamplerThread, reduceCtorEq] at h
    cases h
    exact .refreshTopology _ tick cpuOk memoryOk hw
  | beginDiscovery =>
    cases hw : s.worker <;> simp only [machine, step, hw, windowsSamplerThread, reduceCtorEq] at h
    cases h
    exact .beginDiscovery _ _ _ hw
  | leave =>
    cases hw : s.worker <;> simp only [machine, step, hw, windowsSamplerThread, reduceCtorEq] at h
    cases h
    exact .leave _ _ hw
  | complete =>
    cases hw : s.worker <;> simp only [machine, step, hw, windowsSamplerThread, reduceCtorEq] at h
    cases h
    exact .complete _ hw

end SystemMonitor.Windows
