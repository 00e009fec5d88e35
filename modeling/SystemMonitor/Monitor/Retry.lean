import SystemMonitor.Lib.Backoff
import SystemMonitor.Monitor.Topology

/-! The retry back-off of the topology refreshes.

`sample_once` decides by four fields whether a sample refreshes the topology: the time of
the last complete refresh, the retry flag, the failure counter and the time before which
nothing is retried. `Paced` is what they say of the refreshes so far; every call keeps it
(`Paced.enter`, `Paced.leave`), forced or not. `topology_retry_spec` draws the conclusions
for a run of calls, `sampler_paced` for every schedule of the two threads. -/
namespace SystemMonitor.Monitor
open Lib Backoff

variable {π : Type}

/-- Common's `infiltratr_interval_due`: with a positive baseline that is not ahead of the
clock, it is due no earlier than the interval after it. -/
structure RefreshTiming where
  due : ℚ → ℚ → ℚ → Bool
  elapsed : ∀ now last interval, 0 < last → last ≤ now → 0 < interval → due now last interval = true → last + interval ≤ now

def RefreshTiming.documented : RefreshTiming where
  due now last interval := !(decide (0 < last) && decide (last ≤ now) && decide (0 < interval)) || decide (last + interval ≤ now)
  elapsed now last interval hlast hnow hinterval h := by simpa [hlast, hnow, hinterval] using h

/-! ### Calls -/

/-- What a call of `sample_once` finds. -/
structure Call where
  now : Option ℚ
  forceTopology : Bool
  storageComplete : Bool
  hardwareComplete : Bool

/-- `false`: the clock is refused, and nothing changes. -/
def sampleOnce (due : ℚ → ℚ → ℚ → Bool) (s : LsmLinuxMonitorBackendState × LsmMonitor π) (call : Call) :
    (LsmLinuxMonitorBackendState × LsmMonitor π) × Bool :=
  match sampleOnceEnter due s.1 call.now call.forceTopology with
  | none => (s, false)
  | some (state, p) => (sampleOnceLeave state s.2 p call.storageComplete call.hardwareComplete, true)

/-- The refresh of a sample, if it makes one. -/
def Sampling.attempts (p : Sampling) (storageComplete hardwareComplete : Bool) : List Attempt :=
  if p.refreshTopology then [⟨p.now, storageComplete && hardwareComplete⟩] else []

def attempts (due : ℚ → ℚ → ℚ → Bool) (s : LsmLinuxMonitorBackendState × LsmMonitor π) (call : Call) : List Attempt :=
  match sampleOnceEnter due s.1 call.now call.forceTopology with
  | none => []
  | some (_, p) => p.attempts call.storageComplete call.hardwareComplete

/-- The state after some calls, with the refreshes they have made. -/
def runCalls (due : ℚ → ℚ → ℚ → Bool) (s : LsmLinuxMonitorBackendState × LsmMonitor π) (calls : List Call) :
    (LsmLinuxMonitorBackendState × LsmMonitor π) × List Attempt :=
  calls.foldl (fun (s, log) call => ((sampleOnce due s call).1, log ++ attempts due s call)) (s, [])

/-- A clock reading that `lsm_monitor_platform_init` goes on with. -/
abbrev Start := {now : ℚ // 0 < now}

def afterInit (start : Start) (telemetry : π) : LsmLinuxMonitorBackendState × LsmMonitor π :=
  let s := lsmMonitorPlatformInit start.1 telemetry
  (s.sampler.backend, s.sampler.sample)

theorem topologyRetryDelay_settles (k : Nat) : topologyRetryDelay (min k uintMax) = topologyRetryDelay k := by
  by_cases h : k ≤ uintMax
  · rw [Nat.min_eq_left h]
  · have hmax : uintMax = 4294967295 := rfl
    rw [Nat.min_eq_right (Nat.le_of_not_le h), topologyRetryDelay, topologyRetryDelay, if_neg (by omega),
      if_neg (by omega), if_neg (by omega), if_neg (by omega), if_neg (by omega), if_neg (by omega)]

/-- One, two, four and from then on five seconds after failures, five after a success. -/
def topologyPolicy : Policy where
  interval := topologyScanIntervalSeconds
  delay := topologyRetryDelay
  limit := uintMax
  settles := topologyRetryDelay_settles

def LsmLinuxMonitorBackendState.schedule (s : LsmLinuxMonitorBackendState) : Schedule :=
  ⟨s.lastTopologyScanMonotonic, s.topologyRetryFailures, s.topologyRetryNotBeforeMonotonic⟩

/-- What the fields say of the refreshes so far. -/
structure Paced (start : ℚ) (log : List Attempt) (s : LsmLinuxMonitorBackendState) : Prop where
  keeps : Keeps topologyPolicy start log s.schedule
  pending : s.topologyRetryPending = decide (s.topologyRetryFailures ≠ 0)
  positive : 0 < s.lastTopologyScanMonotonic
  ordered : s.lastTopologyScanMonotonic ≤ s.lastUpdateMonotonic

/-! ### What each call keeps -/

theorem sampleOnceEnter_some {due : ℚ → ℚ → ℚ → Bool} {s state : LsmLinuxMonitorBackendState} {now : Option ℚ}
    {force : Bool} {p : Sampling} (h : sampleOnceEnter due s now force = some (state, p)) :
    s.lastUpdateMonotonic < p.now ∧ state = {s with lastUpdateMonotonic := p.now} ∧
      p.refreshTopology = (force ||
        s.topologyRetryPending && decide (s.topologyRetryNotBeforeMonotonic ≤ p.now) ||
        !s.topologyRetryPending && due p.now s.lastTopologyScanMonotonic topologyScanIntervalSeconds) := by
  unfold sampleOnceEnter at h
  split at h
  · cases h
  · split at h
    · cases h
    · rename_i hnow
      cases h
      exact ⟨not_le.mp hnow, rfl, rfl⟩

section
variable {start : ℚ} {log : List Attempt} {s : LsmLinuxMonitorBackendState}

theorem Paced.enter (h : Paced start log s) {now : ℚ} (hnow : s.lastUpdateMonotonic < now) :
    Paced start log {s with lastUpdateMonotonic := now} where
  keeps := h.keeps
  pending := h.pending
  positive := h.positive
  ordered := h.ordered.trans (le_of_lt hnow)

/-- A refresh that is not forced has waited long enough. -/
theorem Paced.spaced (h : Paced start log s) (timing : RefreshTiming) {now : Option ℚ} {state : LsmLinuxMonitorBackendState}
    {p : Sampling} (henter : sampleOnceEnter timing.due s now false = some (state, p)) (hrefresh : p.refreshTopology = true) :
    topologyPolicy.Spaced log p.now := by
  obtain ⟨hnow, -, hdecided⟩ := sampleOnceEnter_some henter
  have hpending := h.pending
  apply h.keeps.spaced (by decide)
  rw [hrefresh] at hdecided
  show if s.topologyRetryFailures = 0 then s.lastTopologyScanMonotonic + topologyScanIntervalSeconds ≤ p.now
    else s.topologyRetryNotBeforeMonotonic ≤ p.now
  by_cases hfailures : s.topologyRetryFailures = 0
  · rw [decide_eq_false (not_not_intro hfailures)] at hpending
    rw [if_pos hfailures]
    rw [hpending] at hdecided
    exact timing.elapsed _ _ _ h.positive (h.ordered.trans (le_of_lt hnow)) (by decide) hdecided.symm
  · rw [decide_eq_true hfailures] at hpending
    rw [if_neg hfailures]
    rw [hpending, Bool.false_or, Bool.true_and, Bool.not_true, Bool.false_and, Bool.or_false] at hdecided
    exact of_decide_eq_true hdecided.symm

/-- What the tail of a sample does with the four fields. -/
theorem sampleOnceLeave_schedule (s : LsmLinuxMonitorBackendState) (sample : LsmMonitor π) (p : Sampling)
    (storage hardware : Bool) :
    let t := (sampleOnceLeave s sample p storage hardware).1
    t.lastUpdateMonotonic = s.lastUpdateMonotonic ∧
      t.schedule = (p.attempts storage hardware).foldl (Schedule.record topologyPolicy) s.schedule ∧
      t.topologyRetryPending =
        (p.attempts storage hardware).foldl (fun _ a => !a.succeeded) s.topologyRetryPending := by
  have hbatteries : ∀ t : LsmLinuxMonitorBackendState,
      let u := if p.refreshBatteries then {t with lastBatteryUpdateMonotonic := p.now} else t
      u.lastUpdateMonotonic = t.lastUpdateMonotonic ∧ u.schedule = t.schedule ∧
        u.topologyRetryPending = t.topologyRetryPending := by
    intro t
    dsimp only
    split <;> exact ⟨rfl, rfl, rfl⟩
  obtain ⟨hupdate, hschedule, hpending⟩ := hbatteries _
  unfold sampleOnceLeave
  refine ⟨hupdate.trans ?_, hschedule.trans ?_, hpending.trans ?_⟩
  · cases p.refreshTopology with
    | false => rfl
    | true => cases storage <;> cases hardware <;> rfl
  all_goals
    unfold Sampling.attempts
    cases p.refreshTopology with
    | false => rfl
    | true => cases storage <;> cases hardware <;> rfl

/-- A failure leaves the counter up, a success clears it. -/
theorem record_failures (s : Schedule) (a : Attempt) :
    (!a.succeeded) = decide ((s.record topologyPolicy a).failures ≠ 0) := by
  unfold Schedule.record
  cases a.succeeded with
  | true => rfl
  | false =>
    have hmax : topologyPolicy.limit = 4294967295 := rfl
    have hcounts : (if s.failures < topologyPolicy.limit then s.failures + 1 else s.failures) ≠ 0 := by
      split <;> omega
    exact (decide_eq_true hcounts).symm

theorem Paced.leave (h : Paced start log s) (sample : LsmMonitor π) {p : Sampling} (hnow : s.lastUpdateMonotonic = p.now)
    (storage hardware : Bool) :
    Paced start (log ++ p.attempts storage hardware) (sampleOnceLeave s sample p storage hardware).1 := by
  obtain ⟨hupdate, hschedule, hpending⟩ := sampleOnceLeave_schedule s sample p storage hardware
  cases hrefresh : p.refreshTopology with
  | false =>
    have hnone : p.attempts storage hardware = [] := by rw [Sampling.attempts, hrefresh, if_neg Bool.false_ne_true]
    rw [hnone] at hschedule hpending ⊢
    obtain ⟨hscan, hfailures, -⟩ := Schedule.mk.inj hschedule
    rw [List.append_nil]
    refine ⟨hschedule ▸ h.keeps, ?_, ?_, ?_⟩
    · rw [hpending, hfailures]
      exact h.pending
    · rw [hscan]
      exact h.positive
    · rw [hscan, hupdate]
      exact h.ordered
  | true =>
    have hone : p.attempts storage hardware = [⟨p.now, storage && hardware⟩] := by
      rw [Sampling.attempts, hrefresh, if_pos rfl]
    rw [hone] at hschedule hpending ⊢
    rw [List.foldl_cons, List.foldl_nil] at hschedule hpending
    have hscan : 0 < (s.schedule.record topologyPolicy ⟨p.now, storage && hardware⟩).lastSuccess ∧
        (s.schedule.record topologyPolicy ⟨p.now, storage && hardware⟩).lastSuccess ≤ s.lastUpdateMonotonic := by
      unfold Schedule.record
      cases storage && hardware with
      | true => exact ⟨hnow ▸ lt_of_lt_of_le h.positive h.ordered, le_of_eq hnow.symm⟩
      | false => exact ⟨h.positive, h.ordered⟩
    rw [← hschedule] at hscan
    refine ⟨hschedule ▸ h.keeps.record _, ?_, hscan.1, hupdate ▸ hscan.2⟩
    rw [hpending, record_failures, ← hschedule]
    rfl

theorem Paced.pending_iff (h : Paced start log s) : s.topologyRetryPending = true ↔ 1 ≤ s.topologyRetryFailures := by
  rw [h.pending, decide_eq_true_iff]
  exact Nat.one_le_iff_ne_zero.symm

end

/-! ### Runs of calls -/

theorem paced_init (start : Start) (telemetry : π) : Paced start.1 [] (afterInit start telemetry).1 where
  keeps := keeps_nil topologyPolicy start.1 0
  pending := rfl
  positive := start.2
  ordered := le_refl _

theorem paced_call {due : ℚ → ℚ → ℚ → Bool} {start : ℚ} {log : List Attempt}
    {s : LsmLinuxMonitorBackendState × LsmMonitor π} (h : Paced start log s.1) (call : Call) :
    Paced start (log ++ attempts due s call) (sampleOnce due s call).1.1 := by
  unfold attempts sampleOnce
  cases henter : sampleOnceEnter due s.1 call.now call.forceTopology with
  | none =>
    rw [List.append_nil]
    exact h
  | some entered =>
    obtain ⟨state, p⟩ := entered
    obtain ⟨hnow, rfl, -⟩ := sampleOnceEnter_some henter
    exact (h.enter hnow).leave s.2 rfl call.storageComplete call.hardwareComplete

theorem runCalls_concat (due : ℚ → ℚ → ℚ → Bool) (s : LsmLinuxMonitorBackendState × LsmMonitor π) (calls : List Call)
    (call : Call) :
    let before := runCalls due s calls
    runCalls due s (calls ++ [call]) = ((sampleOnce due before.1 call).1, before.2 ++ attempts due before.1 call) :=
  List.foldl_concat ..

theorem paced_calls (due : ℚ → ℚ → ℚ → Bool) (start : Start) (telemetry : π) (calls : List Call) :
    let after := runCalls due (afterInit start telemetry) calls
    Paced start.1 after.2 after.1.1 := by
  induction calls using List.reverseRecOn with
  | nil => exact paced_init start telemetry
  | append_singleton calls call ih =>
    rw [runCalls_concat]
    exact paced_call ih call

/-- The waits: five seconds after a success, then one, two, four and five after failures. -/
theorem topologyPolicy_wait (log : List Attempt) :
    topologyPolicy.wait log = match failureCount log with
      | 0 => 5
      | 1 => 1
      | 2 => 2
      | 3 => 4
      | _ => 5 := by
  rw [Policy.wait]
  generalize failureCount log = k
  rcases k with _ | _ | _ | _ | k
  · rfl
  · rfl
  · rfl
  · rfl
  · show topologyRetryDelay (k + 4) = 5
    rw [topologyRetryDelay, if_neg (by omega), if_neg (by omega), if_neg (by omega)]
    rfl

/-- **The retry back-off.** After any run of calls the retry flag is up exactly where the
failure counter is, a refresh of the next call that is not forced has waited after the last
one as `topologyPolicy` says, a failed one leaves the time of the last complete refresh, and
a complete one clears the whole retry state. -/
theorem topology_retry_spec (timing : RefreshTiming) (start : Start) (telemetry : π) (calls : List Call) (call : Call) :
    let before := runCalls timing.due (afterInit start telemetry) calls
    let s := before.1.1
    let t := (sampleOnce timing.due before.1 call).1.1
    (s.topologyRetryPending = true ↔ 1 ≤ s.topologyRetryFailures) ∧
    ∀ attempt ∈ attempts timing.due before.1 call,
      (call.forceTopology = false → topologyPolicy.Spaced before.2 attempt.time) ∧
      (attempt.succeeded = false → t.lastTopologyScanMonotonic = s.lastTopologyScanMonotonic) ∧
      (attempt.succeeded = true → t.lastTopologyScanMonotonic = attempt.time ∧
        t.topologyRetryPending = false ∧ t.topologyRetryFailures = 0 ∧ t.topologyRetryNotBeforeMonotonic = 0) := by
  intro before s t
  have hpaced : Paced start.1 before.2 s := paced_calls timing.due start telemetry calls
  refine ⟨hpaced.pending_iff, fun attempt hattempt => ?_⟩
  have hstep : t = (sampleOnce timing.due before.1 call).1.1 := rfl
  unfold attempts at hattempt
  unfold sampleOnce at hstep
  cases henter : sampleOnceEnter timing.due before.1.1 call.now call.forceTopology with
  | none =>
    rw [henter] at hattempt
    cases hattempt
  | some entered =>
    obtain ⟨state, p⟩ := entered
    rw [henter] at hattempt hstep
    dsimp only at hattempt hstep
    obtain ⟨-, hstate, -⟩ := sampleOnceEnter_some henter
    obtain ⟨-, hschedule, hpending⟩ :=
      sampleOnceLeave_schedule state before.1.2 p call.storageComplete call.hardwareComplete
    cases hrefresh : p.refreshTopology with
    | false =>
      rw [Sampling.attempts, hrefresh] at hattempt
      cases hattempt
    | true =>
      rw [Sampling.attempts, hrefresh, if_pos rfl] at hattempt hschedule hpending
      obtain rfl := List.mem_singleton.mp hattempt
      rw [← hstep] at hschedule hpending
      refine ⟨fun hforce => ?_, fun hfailed => ?_, fun hsucceeded => ?_⟩
      · rw [hforce] at henter
        exact hpaced.spaced timing henter hrefresh
      · obtain ⟨hscan, -, -⟩ := Schedule.mk.inj (hschedule.trans (if_neg (ne_true_of_eq_false hfailed)))
        rw [hscan, hstate]
        rfl
      · obtain ⟨hscan, hfailures, hnotBefore⟩ := Schedule.mk.inj (hschedule.trans (if_pos hsucceeded))
        refine ⟨hscan, ?_, hfailures, hnotBefore⟩
        rw [hpending]
        exact congrArg not hsucceeded

/-! ### The two threads -/

/-- The refresh that a step completes. -/
def completed (s : State π) : Action π → List Attempt
  | .leave storage hardware =>
    match s.worker with
    | .sampling p => p.attempts storage hardware
    | _ => []
  | _ => []

/-- The sampler's state follows its refreshes, also while one is under way. -/
structure SamplerPaced (start : ℚ) (log : List Attempt) (s : State π) : Prop where
  paced : Paced start log s.sampler.backend
  sampling : ∀ p, s.worker = .sampling p → s.sampler.backend.lastUpdateMonotonic = p.now

theorem SamplerPaced.worker {due : ℚ → ℚ → ℚ → Bool} {start : ℚ} {log : List Attempt} {s t : State π} {a : Action π}
    (h : SamplerPaced start log s) (hstep : samplerThreadMain due s s.worker a = some t) :
    SamplerPaced start (log ++ completed s a) t := by
  have hkeep : ∀ {t : State π}, completed s a = [] → Paced start log t.sampler.backend →
      (∀ p, t.worker = .sampling p → t.sampler.backend.lastUpdateMonotonic = p.now) →
        SamplerPaced start (log ++ completed s a) t := by
    intro t hnone hpaced hsampling
    rw [hnone, List.append_nil]
    exact ⟨hpaced, hsampling⟩
  rcases worker_cases hstep with ⟨_, rfl, _, rfl⟩ | ⟨_, _, rfl, hw, rfl⟩ | ⟨rfl, hw, _, _, rfl⟩ |
    ⟨rfl, hw, _, rfl⟩ | ⟨force, now, rfl, hw, he, rfl⟩ | ⟨force, now, backend, p, rfl, hw, he, rfl⟩ |
    ⟨p, storage, hardware, rfl, hw, rfl⟩ | ⟨_, rfl, hw, rfl⟩
  · exact hkeep rfl h.paced h.sampling
  · exact hkeep rfl ⟨h.paced.keeps, h.paced.pending, h.paced.positive, h.paced.ordered⟩ fun _ hp => by cases hp
  · exact hkeep rfl ⟨h.paced.keeps, h.paced.pending, h.paced.positive, h.paced.ordered⟩ fun _ hp => by cases hp
  · exact hkeep rfl h.paced fun _ hp => by cases hp
  · exact hkeep rfl h.paced fun _ hp => by cases hp
  · obtain ⟨hnow, rfl, -⟩ := sampleOnceEnter_some he
    refine hkeep rfl (h.paced.enter hnow) fun q hq => ?_
    cases hq
    rfl
  · have hcompleted : completed s (.leave storage hardware) = p.attempts storage hardware := by rw [completed, hw]
    rw [hcompleted]
    exact ⟨h.paced.leave s.sampler.sample (h.sampling p hw) storage hardware, fun _ hp => by cases hp⟩
  · exact hkeep rfl h.paced fun _ hp => by cases hp

theorem SamplerPaced.step {due : ℚ → ℚ → ℚ → Bool} {start : ℚ} {log : List Attempt} {s t : State π} {a : Action π}
    (h : SamplerPaced start log s) (hstep : step due s a = some t) : SamplerPaced start (log ++ completed s a) t := by
  have hframe : ∀ {t : State π}, completed s a = [] → t.worker = s.worker →
      (∃ requested, t.sampler.backend = {s.sampler.backend with topologyRefreshRequested := requested}) →
        SamplerPaced start (log ++ completed s a) t := by
    rintro t hnone hworker ⟨requested, hbackend⟩
    rw [hnone, List.append_nil]
    refine ⟨?_, fun p hp => ?_⟩
    · rw [hbackend]
      exact ⟨h.paced.keeps, h.paced.pending, h.paced.positive, h.paced.ordered⟩
    · rw [hbackend]
      exact h.sampling p (hworker ▸ hp)
  cases a with
  | update =>
    cases hstep
    exact hframe rfl (update_worker s) ⟨_, update_backend s⟩
  | requestTopologyRefresh =>
    cases hstep
    rcases requestTopologyRefresh_cases s with ⟨-, hrequest⟩ | ⟨requestPending, -, hrequest⟩
    · exact hframe rfl (by rw [hrequest]) ⟨s.sampler.backend.topologyRefreshRequested, by rw [hrequest]⟩
    · exact hframe rfl (by rw [hrequest]) ⟨true, by rw [hrequest]⟩
  | destroy =>
    cases hstep
    rcases destroy_cases s with hdestroy | hdestroy
    · exact hframe rfl (by rw [hdestroy]) ⟨s.sampler.backend.topologyRefreshRequested, by rw [hdestroy]⟩
    · exact hframe rfl (by rw [hdestroy]) ⟨s.sampler.backend.topologyRefreshRequested, by rw [hdestroy]⟩
  | collect telemetry => exact h.worker hstep
  | initialised storage hardware => exact h.worker hstep
  | take => exact h.worker hstep
  | exit => exact h.worker hstep
  | enter now => exact h.worker hstep
  | leave storage hardware => exact h.worker hstep
  | complete => exact h.worker hstep

/-- The same on every schedule of the two threads: a sample that nobody has forced refreshes
the topology only when the refreshes completed so far allow it. -/
theorem sampler_spaced (timing : RefreshTiming) (start : Start) (telemetry : π) {actions : List (Action π)} {s : State π}
    (hrun : (machine timing.due).run (lsmMonitorPlatformInit start.1 telemetry) actions = some s) {now : Option ℚ}
    {backend : LsmLinuxMonitorBackendState} {p : Sampling}
    (henter : sampleOnceEnter timing.due s.sampler.backend now false = some (backend, p)) (hrefresh : p.refreshTopology = true) :
    topologyPolicy.Spaced ((machine timing.due).trace completed (lsmMonitorPlatformInit start.1 telemetry) actions) p.now := by
  have hinit : SamplerPaced start.1 [] (lsmMonitorPlatformInit start.1 telemetry) :=
    ⟨paced_init start telemetry, fun _ hp => by cases hp⟩
  have hpaced := (machine timing.due).run_trace_invariant completed (fun _ _ => True) (SamplerPaced start.1)
    (fun _ _ _ _ h _ hstep => h.step hstep) hinit ((machine timing.due).admissible_true _ _) hrun
  exact hpaced.paced.spaced timing henter hrefresh

end SystemMonitor.Monitor
