import SystemMonitor.Monitor.Handoff

/-! Topology requests.

A request raises a flag, and so does a failed discovery. The worker lowers the
flag as it takes the next sample, before `sample_once` has looked at the clock;
a refused sample then refreshes nothing and the request is gone
(`topology_request_lost`). While forced samples are not refused, no request is
lost (`topology_request_kept`). -/
namespace SystemMonitor.Monitor
open Lib

variable {π : Type} {due : ℚ → ℚ → ℚ → Bool}

/-- For each accepted `sample_once`, whether it refreshes the topology. -/
def refreshes (due : ℚ → ℚ → ℚ → Bool) (s : State π) : Action π → List Bool
  | .enter now =>
    match s.worker with
    | .entering force => (sampleOnceEnter due s.sampler.backend now force).toList.map fun p => p.2.refreshTopology
    | _ => []
  | _ => []

/-- A request that reaches the sampler, or a failed initial discovery. -/
def Requests (s : State π) : Action π → Prop
  | .requestTopologyRefresh => s.attached = true
  | .initialised storageComplete hardwareComplete => (storageComplete && hardwareComplete) = false
  | _ => False

/-- A forced sample finds a finite clock that has moved on. -/
def ClockAdvances (s : State π) (a : Action π) : Prop :=
  ∀ now, a = .enter now → s.worker = .entering true → ∃ t, now = some t ∧ s.sampler.backend.lastUpdateMonotonic < t

theorem clockAdvances_of_ne {s : State π} {a : Action π} (h : ∀ now, a ≠ .enter now) : ClockAdvances s a :=
  fun now hnow => absurd hnow (h now)

/-- The flag is up, or the worker is inside the `sample_once` that took it, or a
sample since the request has refreshed the topology. -/
def Kept (since : List Bool) (s : State π) : Prop :=
  s.sampler.backend.topologyRefreshRequested = true ∨ s.worker = .entering true ∨ true ∈ since

/-! ### What each step keeps -/

theorem Kept.append {since : List Bool} {s : State π} (h : Kept since s) (more : List Bool) :
    Kept (since ++ more) s := by
  rcases h with hflag | hworker | hdone
  · exact Or.inl hflag
  · exact Or.inr (Or.inl hworker)
  · exact Or.inr (Or.inr (List.mem_append_left _ hdone))

/-- A step that touches neither the flag nor the worker. -/
theorem Kept.frame {since : List Bool} {s t : State π} (h : Kept since s) (hworker : t.worker = s.worker)
    (hflag : t.sampler.backend.topologyRefreshRequested = s.sampler.backend.topologyRefreshRequested) :
    Kept since t := by
  unfold Kept
  rw [hworker, hflag]
  exact h

theorem update_backend (s : State π) : (lsmMonitorPlatformUpdate s).sampler.backend = s.sampler.backend := by
  obtain ⟨monitor, requestPending, sampleReady, hupdate⟩ := update_frame s
  rw [hupdate]

theorem request_raises {s : State π} (hattached : s.attached = true) :
    (lsmMonitorPlatformRequestTopologyRefresh s).sampler.backend.topologyRefreshRequested = true := by
  rcases requestTopologyRefresh_cases s with ⟨hdetached, -⟩ | ⟨requestPending, -, hrequest⟩
  · rw [hattached] at hdetached
    cases hdetached
  · rw [hrequest]

/-- What raises the flag leaves a kept request. -/
theorem requests_kept {s t : State π} {a : Action π} (hrequest : Requests s a) (hstep : step due s a = some t) :
    Kept [] t := by
  left
  cases a with
  | requestTopologyRefresh =>
    cases hstep
    exact request_raises hrequest
  | initialised storage hardware =>
    have hcases := worker_cases hstep
    simp only [reduceCtorEq, false_and, exists_false, false_or, or_false, Action.initialised.injEq] at hcases
    obtain ⟨storage', hardware', ⟨rfl, rfl⟩, -, rfl⟩ := hcases
    have hincomplete : (storage && hardware) = false := hrequest
    simp [hincomplete]
  | update => cases hrequest
  | destroy => cases hrequest
  | collect telemetry => cases hrequest
  | take => cases hrequest
  | exit => cases hrequest
  | enter now => cases hrequest
  | leave storage hardware => cases hrequest
  | complete => cases hrequest

/-- A forced sample that the clock does not refuse refreshes the topology. -/
theorem sampleOnceEnter_forced (due : ℚ → ℚ → ℚ → Bool) (state : LsmLinuxMonitorBackendState) {now : ℚ}
    (hnow : state.lastUpdateMonotonic < now) :
    ∃ accepted, sampleOnceEnter due state (some now) true = some accepted ∧ accepted.2.refreshTopology = true := by
  simp only [sampleOnceEnter]
  rw [if_neg (not_le.mpr hnow)]
  exact ⟨_, rfl, rfl⟩

theorem sampleOnceEnter_flag {state backend : LsmLinuxMonitorBackendState} {now : Option ℚ} {force : Bool}
    {p : Sampling} (h : sampleOnceEnter due state now force = some (backend, p)) :
    backend.topologyRefreshRequested = state.topologyRefreshRequested := by
  unfold sampleOnceEnter at h
  split at h
  · cases h
  · split at h
    · cases h
    · cases h
      rfl

theorem sampleOnceLeave_flag (state : LsmLinuxMonitorBackendState) (sample : LsmMonitor π) (p : Sampling)
    (storage hardware : Bool) :
    (sampleOnceLeave state sample p storage hardware).1.topologyRefreshRequested =
      state.topologyRefreshRequested := by
  unfold sampleOnceLeave
  dsimp only
  split <;> split <;> first | rfl | (split <;> rfl)

theorem worker_kept {since : List Bool} {s t : State π} {a : Action π} (h : Kept since s)
    (hclock : ClockAdvances s a) (hstep : samplerThreadMain due s s.worker a = some t) :
    Kept (since ++ refreshes due s a) t := by
  rcases worker_cases hstep with ⟨_, rfl, _, rfl⟩ | ⟨_, _, rfl, hw, rfl⟩ | ⟨rfl, hw, _, _, rfl⟩ |
    ⟨rfl, hw, _, rfl⟩ | ⟨force, now, rfl, hw, he, rfl⟩ | ⟨force, now, backend, p, rfl, hw, he, rfl⟩ |
    ⟨p, storage, hardware, rfl, hw, rfl⟩ | ⟨_, rfl, hw, rfl⟩
  · exact (h.append _).frame rfl rfl
  all_goals
    rcases h with hflag | hworker | hdone
    rotate_left 2
    · exact Or.inr (Or.inr (List.mem_append_left _ hdone))
  all_goals try (rw [hw] at hworker; cases hworker)
  · exact Or.inl (by simp [hflag])
  · -- The flag passes from the state to the worker.
    exact Or.inr (Or.inl (by simp [hflag]))
  · exact Or.inl hflag
  · exact Or.inl hflag
  · obtain ⟨t, rfl, hlt⟩ := hclock now rfl hw
    obtain ⟨accepted, haccepted, -⟩ := sampleOnceEnter_forced due s.sampler.backend hlt
    rw [he] at haccepted
    cases haccepted
  · exact Or.inl ((sampleOnceEnter_flag he).trans hflag)
  · obtain ⟨t, rfl, hlt⟩ := hclock now rfl hw
    obtain ⟨accepted, haccepted, htopology⟩ := sampleOnceEnter_forced due s.sampler.backend hlt
    rw [he] at haccepted
    cases haccepted
    have hrefreshes : refreshes due s (.enter (some t)) = [true] := by
      simp only [refreshes, hw, he, Option.toList_some, List.map_cons, List.map_nil]
      exact congrArg (fun b => [b]) htopology
    right
    right
    rw [hrefreshes]
    exact List.mem_append_right _ (List.mem_singleton_self true)
  · exact Or.inl ((sampleOnceLeave_flag s.sampler.backend s.sampler.sample p storage hardware).trans hflag)
  · exact Or.inl hflag

theorem step_kept {since : List Bool} {s t : State π} {a : Action π} (h : Kept since s)
    (hclock : ClockAdvances s a) (hstep : step due s a = some t) : Kept (since ++ refreshes due s a) t := by
  cases a with
  | update =>
    cases hstep
    exact (h.append _).frame (update_worker s) (by rw [update_backend])
  | requestTopologyRefresh =>
    cases hstep
    rcases requestTopologyRefresh_cases s with ⟨-, hrequest⟩ | ⟨requestPending, -, hrequest⟩
    · rw [hrequest]
      exact h.append _
    · rw [hrequest]
      exact Or.inl rfl
  | destroy =>
    cases hstep
    rcases destroy_cases s with hdestroy | hdestroy
    · rw [hdestroy]
      exact (h.append _).frame rfl rfl
    · rw [hdestroy]
      exact h.append _
  | collect telemetry => exact worker_kept h hclock hstep
  | initialised storage hardware => exact worker_kept h hclock hstep
  | take => exact worker_kept h hclock hstep
  | exit => exact worker_kept h hclock hstep
  | enter now => exact worker_kept h hclock hstep
  | leave storage hardware => exact worker_kept h hclock hstep
  | complete => exact worker_kept h hclock hstep

/-! ### Whole runs -/

/-- **No request is lost while forced samples are accepted.** After a request in
any state, on every schedule in which each forced sample finds a clock that has
moved on: the flag is still up, or the worker is inside the sample that took it,
or a sample since the request has refreshed the topology. -/
theorem topology_request_kept (s₀ : State π) (request : Action π) {after : List (Action π)} {s₁ s : State π}
    (hrequest : Requests s₀ request) (hstep : (machine due).step s₀ request = some s₁)
    (hafter : (machine due).run s₁ after = some s) (hclock : (machine due).Admissible ClockAdvances s₁ after) :
    s.sampler.backend.topologyRefreshRequested = true ∨ s.worker = .entering true ∨
      true ∈ (machine due).trace (refreshes due) s₁ after :=
  (machine due).run_trace_invariant (refreshes due) ClockAdvances Kept
    (fun _ _ _ _ h hrule hstep => step_kept h hrule hstep) (requests_kept hrequest hstep) hclock hafter

/-- A sample in which everything goes well, at this time. -/
def oneSample (now : ℚ) : List (Action Nat) := [.take, .enter (some now), .collect 7, .leave true true, .complete]

/-- A sample that the clock refuses. -/
def refusedSample (now : ℚ) : List (Action Nat) := [.take, .enter (some now), .complete]

theorem topology_request_kept_sampled :
    ∃ s₁ s, (machine fun _ _ _ => false).step (lsmMonitorPlatformInit 1 0) .requestTopologyRefresh = some s₁ ∧
      (machine fun _ _ _ => false).run s₁ (.initialised true true :: oneSample 2) = some s ∧
      s.sampler.backend.topologyRefreshRequested = false ∧
      true ∈ (machine fun _ _ _ => false).trace (refreshes fun _ _ _ => false) s₁
        (.initialised true true :: oneSample 2) := by
  have hend : ((machine fun _ _ _ => false).run (lsmMonitorPlatformRequestTopologyRefresh
      (lsmMonitorPlatformInit 1 0)) (.initialised true true :: oneSample 2)).map (fun s =>
        decide (s.sampler.backend.topologyRefreshRequested = false ∧ s.worker = .waiting)) = some true := by
    decide
  obtain ⟨s, hrun, hfacts⟩ := Option.map_eq_some_iff.mp hend
  obtain ⟨hflag, hworker⟩ := of_decide_eq_true hfacts
  refine ⟨_, s, rfl, hrun, hflag, ?_⟩
  have hclock : (machine fun _ _ _ => false).Admissible ClockAdvances (lsmMonitorPlatformRequestTopologyRefresh
      (lsmMonitorPlatformInit 1 0)) (.initialised true true :: oneSample 2) := by
    refine ⟨clockAdvances_of_ne fun _ => by simp, fun t ht => ?_⟩
    cases ht
    refine ⟨clockAdvances_of_ne fun _ => by simp, fun t ht => ?_⟩
    cases ht
    refine ⟨?_, fun t ht => ?_⟩
    · intro now hnow _
      cases hnow
      exact ⟨2, rfl, by decide⟩
    · cases ht
      refine ⟨clockAdvances_of_ne fun _ => by simp, fun t ht => ?_⟩
      cases ht
      refine ⟨clockAdvances_of_ne fun _ => by simp, fun t ht => ?_⟩
      cases ht
      exact ⟨clockAdvances_of_ne fun _ => by simp, fun t ht => trivial⟩
  rcases topology_request_kept (lsmMonitorPlatformInit 1 0) .requestTopologyRefresh rfl rfl hrun hclock with
    hup | hinside | hdone
  · rw [hflag] at hup
    cases hup
  · rw [hworker] at hinside
    cases hinside
  · exact hdone

/-- The worker takes the request and the clock has not moved: nothing is
refreshed, and nothing remembers the request. Likewise for a failed discovery. -/
theorem topology_request_lost :
    (∃ s₀ s₁ s, (machine fun _ _ _ => false).run (lsmMonitorPlatformInit 1 0) [.initialised true true] = some s₀ ∧
      (machine fun _ _ _ => false).step s₀ .requestTopologyRefresh = some s₁ ∧
      (machine fun _ _ _ => false).run s₁ (refusedSample 1) = some s ∧
      s.sampler.backend.topologyRefreshRequested = false ∧ s.worker = .waiting ∧
      (machine fun _ _ _ => false).trace (refreshes fun _ _ _ => false) s₁ (refusedSample 1) = []) ∧
    ∃ s₁ s, (machine fun _ _ _ => false).step (lsmMonitorPlatformInit 1 0) (.initialised false true) = some s₁ ∧
      (machine fun _ _ _ => false).run s₁ (refusedSample 1) = some s ∧
      s.sampler.backend.topologyRefreshRequested = false ∧ s.worker = .waiting ∧
      (machine fun _ _ _ => false).trace (refreshes fun _ _ _ => false) s₁ (refusedSample 1) = [] := by
  refine ⟨⟨_, _, _, rfl, rfl, rfl, ?_⟩, _, _, rfl, rfl, ?_⟩
  · decide
  · decide

end SystemMonitor.Monitor
