import SystemMonitor.Windows.Sampler

/-! What becomes of a topology request to the Windows sampler.

The flag is consumed twice: under the lock, as the force argument, and at the
head of a due `refresh_topology_and_devices`, without it. A due call clears the
flag before it discovers anything, so a request that comes after the decision and
before the clearing is served by the discovery that follows
(`refresh_request_kept`), although that call had started before the request
(`request_after_decision`). -/
namespace SystemMonitor.Windows
open Lib

variable {π : Type}

inductive TopologyEvent where
  /-- A call of `refresh_topology_and_devices` takes the due branch. -/
  | started
  /-- A due call has cleared the flag and goes on to discover. -/
  | discovers
  deriving DecidableEq

def topologyEvents (s : State π) : Action π → List TopologyEvent
  | .refreshTopology tick _ _ =>
    match s.worker with
    | .collecting p => if topologyDue s.sampler.native p.forceTopology tick then [.started] else []
    | _ => []
  | .beginDiscovery => [.discovers]
  | _ => []

/-- The worker has yet to make the call with force true. -/
def Worker.forces : Worker → Bool
  | .entering force => force
  | .collecting p => p.forceTopology
  | _ => false

/-- A request is still up, about to be forced, or served since. -/
def Kept (since : List TopologyEvent) (s : State π) : Prop :=
  s.sampler.native.topologyRefreshRequested = true ∨ s.worker.forces = true ∨
    .started ∈ since ∨ .discovers ∈ since

theorem Kept.served {since : List TopologyEvent} {s : State π} (h : .started ∈ since ∨ .discovers ∈ since) :
    Kept since s := Or.inr (Or.inr h)

/-- A step that touches neither the flag nor a forced call. -/
theorem Kept.keep {since : List TopologyEvent} {s t : State π} (h : Kept since s) (more : List TopologyEvent)
    (hflag : t.sampler.native.topologyRefreshRequested = s.sampler.native.topologyRefreshRequested)
    (hforces : s.worker.forces = true → t.worker.forces = true) : Kept (since ++ more) t := by
  rcases h with hrequested | hforced | hstarted | hdiscovers
  · exact Or.inl (hflag.trans hrequested)
  · exact Or.inr (Or.inl (hforces hforced))
  · exact .served (Or.inl (List.mem_append_left _ hstarted))
  · exact .served (Or.inr (List.mem_append_left _ hdiscovers))

theorem topologyDue_flag {native : LsmWindowsMonitorBackendState} (force : Bool) (tick : Nat)
    (h : native.topologyRefreshRequested = true) : topologyDue native force tick = true := by
  simp [topologyDue, h]

theorem topologyDue_force (native : LsmWindowsMonitorBackendState) (tick : Nat) :
    topologyDue native true tick = true := by
  simp [topologyDue]

theorem Kept.look {since : List TopologyEvent} {s : State π} (h : Kept since s) (hworker : s.worker = .woken) :
    Kept since (samplerThreadLook s) := by
  have hnot : s.worker.forces = true → False := by simp [hworker, Worker.forces]
  unfold samplerThreadLook
  split
  · simpa using h.keep (t := {s with worker := .exited}) [] rfl fun hforced => (hnot hforced).elim
  · split
    · simpa using h.keep (t := {s with worker := .waiting}) [] rfl fun hforced => (hnot hforced).elim
    · rcases h with hrequested | hforced | hserved
      · exact Or.inr (Or.inl hrequested)
      · exact (hnot hforced).elim
      · exact .served hserved

/-- A call finds the flag or its force argument up, and is then due. -/
theorem Kept.refreshTopology {since : List TopologyEvent} {s : State π} (h : Kept since s) {p : Sampling}
    (hworker : s.worker = .collecting p) (tick : Nat) (cpuOk memoryOk : Bool) :
    Kept (since ++ topologyEvents s (.refreshTopology tick cpuOk memoryOk))
      (refreshTopologyAndDevices s p tick cpuOk memoryOk) := by
  simp only [topologyEvents, hworker, refreshTopologyAndDevices]
  split
  · exact .served (Or.inl (List.mem_append_right _ (List.mem_singleton_self _)))
  · rename_i hnot
    rcases h with hrequested | hforced | hserved
    · exact absurd (topologyDue_flag _ _ hrequested) hnot
    · rw [hworker] at hforced
      rw [show p.forceTopology = true from hforced] at hnot
      exact absurd (topologyDue_force _ _) hnot
    · rw [List.append_nil]
      exact .served hserved

theorem Kept.step {since : List TopologyEvent} {s t : State π} {a : Action π} (h : Kept since s)
    (hstep : machine.step s a = some t) : Kept (since ++ topologyEvents s a) t := by
  cases machine_step hstep with
  | update =>
    unfold lsmMonitorPlatformUpdate
    split
    · exact h.keep _ rfl id
    · dsimp only
      split <;> split <;> exact h.keep _ rfl id
  | requestTopologyRefresh =>
    unfold lsmMonitorPlatformRequestTopologyRefresh
    split
    · exact h.keep _ rfl id
    · dsimp only
      split <;> exact Or.inl rfl
  | destroy =>
    unfold lsmMonitorPlatformDestroy
    split <;> exact h.keep _ rfl id
  | setEvent hringing => exact h.keep _ rfl id
  | wake hworker hsignalled => exact h.keep _ rfl (by simp [hworker, Worker.forces])
  | look hworker =>
    rw [show topologyEvents s .look = [] from rfl, List.append_nil]
    exact h.look hworker
  | collect telemetry hworker => exact h.keep _ rfl id
  | enter force now hworker => exact h.keep _ rfl (by simp [hworker, Worker.forces, windowsSampleOnceEnter])
  | refreshTopology p tick cpuOk memoryOk hworker => exact h.refreshTopology hworker tick cpuOk memoryOk
  | beginDiscovery p tick counts hworker =>
    exact .served (Or.inr (List.mem_append_right _ (List.mem_singleton_self _)))
  | leave p counts hworker =>
    unfold windowsSampleOnceLeave
    split <;> exact h.keep _ rfl (by simp [hworker, Worker.forces])
  | complete sampled hworker => exact h.keep _ rfl (by simp [hworker, Worker.forces])

/-- **No request is lost.** After a request in any state, on every schedule: the
flag is still up, or a call with force true is about to be made, or a due call,
or the discovery of one, has started since. -/
theorem refresh_request_kept {s₀ s₁ s : State π} {after : List (Action π)} (hattached : s₀.attached = true)
    (hstep : machine.step s₀ .requestTopologyRefresh = some s₁) (hafter : machine.run s₁ after = some s) :
    s.sampler.native.topologyRefreshRequested = true ∨ s.worker.forces = true ∨
      .started ∈ machine.trace topologyEvents s₁ after ∨ .discovers ∈ machine.trace topologyEvents s₁ after := by
  have hstart : Kept [] s₁ := by
    left
    cases hstep
    rw [lsmMonitorPlatformRequestTopologyRefresh, if_neg (by simp [hattached])]
    dsimp only
    split <;> rfl
  have h := machine.run_trace_invariant topologyEvents (fun _ _ => True) Kept
    (fun _ _ _ _ h _ hstep => h.step hstep) hstart (machine.admissible_true s₁ after) hafter
  rwa [List.nil_append] at h

/-- The first sample, up to the decision that a discovery is due. -/
def decided : List (Action Nat) := [.setEvent, .wake, .look, .enter 16, .refreshTopology 16 true true]

theorem refresh_request_kept_decided :
    ∃ s, machine.run (lsmMonitorPlatformRequestTopologyRefresh (lsmMonitorPlatformInit 0)) decided = some s ∧
      s.worker = .due ⟨16, 0, true⟩ 16 true ∧
      (s.sampler.native.topologyRefreshRequested = true ∨ s.worker.forces = true ∨
        .started ∈ machine.trace topologyEvents
          (lsmMonitorPlatformRequestTopologyRefresh (lsmMonitorPlatformInit 0)) decided ∨
        .discovers ∈ machine.trace topologyEvents
          (lsmMonitorPlatformRequestTopologyRefresh (lsmMonitorPlatformInit 0)) decided) := by
  obtain ⟨s, hrun, hworker⟩ := machine.run_decided (p := fun s : State Nat => s.worker = .due ⟨16, 0, true⟩ 16 true)
    (show (machine.run (lsmMonitorPlatformRequestTopologyRefresh (lsmMonitorPlatformInit 0)) decided).map _ = some true
      by decide)
  have hattached : (lsmMonitorPlatformInit (0 : Nat)).attached = true := rfl
  exact ⟨s, hrun, hworker, refresh_request_kept hattached rfl hrun⟩

/-- A request between the decision and the clearing of the flag: the discovery it
is left to belongs to a call that was already under way. -/
theorem request_after_decision :
    ∃ s₀ s : State Nat, machine.run (lsmMonitorPlatformInit 0) decided = some s₀ ∧
      machine.run (lsmMonitorPlatformRequestTopologyRefresh s₀) [.beginDiscovery] = some s ∧
      ¬(s.sampler.native.topologyRefreshRequested = true ∨ s.worker.forces = true ∨
        .started ∈ machine.trace topologyEvents (lsmMonitorPlatformRequestTopologyRefresh s₀) [.beginDiscovery]) := by
  obtain ⟨s₀, hrun, hnext, htrace⟩ := machine.run_decided
    (p := fun s₀ : State Nat =>
      (machine.run (lsmMonitorPlatformRequestTopologyRefresh s₀) [.beginDiscovery]).map
        (fun s => decide (s.sampler.native.topologyRefreshRequested = false ∧ s.worker.forces = false)) = some true ∧
      .started ∉ machine.trace topologyEvents (lsmMonitorPlatformRequestTopologyRefresh s₀) [.beginDiscovery])
    (show (machine.run (lsmMonitorPlatformInit 0) decided).map _ = some true by decide)
  obtain ⟨s, hafter, hflag, hforces⟩ := machine.run_decided hnext
  refine ⟨s₀, s, hrun, hafter, ?_⟩
  intro h
  simp [hflag, hforces, htrace] at h

end SystemMonitor.Windows
