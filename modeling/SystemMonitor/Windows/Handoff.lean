import SystemMonitor.Monitor.Handoff
import SystemMonitor.Windows.Sampler

/-! What the Windows sampler's flags guarantee, and where they do not.

A topology request raises the request flag without looking at the two others, so
a sample may begin while a completed one has not been read
(`unread_sample_overwritten`). Where topology requests come with neither flag up,
as the Linux sampler makes sure, the hand-off is the same one-place buffer
(`sampler_handoff`). The wake-up needs no such rule: the flag and the event are a
doorbell (`doorbellSimulation`). -/
namespace SystemMonitor.Windows
open Lib SlotEvent
open Monitor (LsmMonitor nextGeneration)

variable {π : Type}

/-! ### Waking up -/

def Worker.waiter : Worker → Waiter
  | .waiting => .asleep
  | .woken => .woken
  | .exited => .gone
  | _ => .busy

def doorbell (s : State π) : Doorbell where
  requested := s.sampler.requestPending
  signalled := s.sampler.signalled
  ringing := s.ringing
  waiter := s.worker.waiter

/-- What a step does to the request and the event. -/
def rings (s : State π) : Action π → List DoorbellEvent
  | .update =>
    if s.attached && !s.sampler.stopRequested && !s.sampler.requestPending && !s.sampler.sampleInProgress then [.raise]
    else []
  | .requestTopologyRefresh => if s.attached && !s.sampler.stopRequested then [.raise, .ring] else []
  | .destroy => if s.attached then [.drop, .approach] else []
  | .setEvent => [.ring]
  | .wake => [.wake]
  | .look => if s.sampler.stopRequested then [.leave] else if s.sampler.requestPending then [.look] else [.rest]
  | .complete => [.rest]
  | _ => []

/-- An update raises the request or leaves both alone. -/
theorem update_doorbell (s : State π) :
    Doorbell.machine.run (doorbell s) (rings s .update) = some (doorbell (lsmMonitorPlatformUpdate s)) := by
  simp only [rings, lsmMonitorPlatformUpdate]
  cases ha : s.attached
  · rfl
  · cases hs : s.sampler.stopRequested <;> cases hp : s.sampler.requestPending <;>
      cases hi : s.sampler.sampleInProgress <;> cases hr : s.sampler.sampleReady <;>
      simp [doorbell, hs, hp, hi, Machine.run, Doorbell.machine, Doorbell.next]

theorem requestTopologyRefresh_doorbell (s : State π) :
    Doorbell.machine.run (doorbell s) (rings s .requestTopologyRefresh) =
      some (doorbell (lsmMonitorPlatformRequestTopologyRefresh s)) := by
  simp only [rings, lsmMonitorPlatformRequestTopologyRefresh]
  cases ha : s.attached
  · rfl
  · cases hs : s.sampler.stopRequested <;>
      simp [doorbell, Machine.run, Doorbell.machine, Doorbell.next]

/-- The request flag and the event behave as a doorbell. -/
def doorbellSimulation : Simulation (machine (π := π)) rings Doorbell.machine where
  Rel := fun s d => d = doorbell s
  step := by
    intro s d a t hrel hstep
    subst hrel
    refine ⟨doorbell t, ?_, rfl⟩
    cases machine_step hstep with
    | update => exact update_doorbell s
    | requestTopologyRefresh => exact requestTopologyRefresh_doorbell s
    | destroy =>
      simp only [rings, lsmMonitorPlatformDestroy]
      cases s.attached <;> rfl
    | setEvent hringing => simp [rings, doorbell, Machine.run, Doorbell.machine, Doorbell.next, hringing]
    | wake hworker hsignalled =>
      simp [rings, doorbell, Machine.run, Doorbell.machine, Doorbell.next, hworker, hsignalled, Worker.waiter]
    | look hworker =>
      simp only [rings, samplerThreadLook]
      cases hstop : s.sampler.stopRequested <;> cases hpending : s.sampler.requestPending <;>
        simp [doorbell, Machine.run, Doorbell.machine, Doorbell.next, hworker, hpending, Worker.waiter]
    | collect telemetry hworker => rfl
    | enter force now hworker => simp [rings, doorbell, Machine.run, windowsSampleOnceEnter, hworker, Worker.waiter]
    | refreshTopology p tick cpuOk memoryOk hworker =>
      simp only [rings, refreshTopologyAndDevices]
      split <;> simp [doorbell, Machine.run, hworker, Worker.waiter]
    | beginDiscovery p tick counts hworker =>
      simp [rings, doorbell, Machine.run, Windows.beginDiscovery, hworker, Worker.waiter]
    | leave p counts hworker =>
      simp only [rings, windowsSampleOnceLeave]
      split <;> simp [doorbell, Machine.run, hworker, Worker.waiter]
    | complete sampled hworker =>
      simp [rings, doorbell, Machine.run, Doorbell.machine, Doorbell.next, samplerThreadComplete, hworker, Worker.waiter]

/-- The worker never sleeps on a request without a ring on its way. -/
theorem request_heard {telemetry : π} {actions : List (Action π)} {s : State π}
    (hrun : machine.run (lsmMonitorPlatformInit telemetry) actions = some s)
    (hpending : s.sampler.requestPending = true) (hwaiting : s.worker = .waiting) :
    s.sampler.signalled = true ∨ 0 < s.ringing := by
  obtain ⟨d, hd, rfl⟩ := doorbellSimulation.run_trace (t := doorbell (lsmMonitorPlatformInit telemetry)) rfl hrun
  have hstart : (doorbell (lsmMonitorPlatformInit telemetry)).Heard := fun _ _ => Or.inr Nat.one_pos
  exact Doorbell.heard hstart hd hpending (Or.inl (by simp [doorbell, hwaiting, Worker.waiter]))

/-! ### The flags -/

/-- What the Linux sampler asks before it raises the flag for a topology request. -/
def Guarded (s : State π) : Action π → Prop
  | .requestTopologyRefresh =>
    s.attached = true → s.sampler.sampleReady = false ∧ s.sampler.sampleInProgress = false
  | _ => True

/-- The flags each phase of the worker allows. -/
def Flags (s : LsmWindowsSamplerState π) : Worker → Prop
  | .waiting | .woken | .exited => s.sampleInProgress = false ∧ ¬(s.requestPending ∧ s.sampleReady)
  | _ => s.requestPending = false ∧ s.sampleInProgress = true ∧ s.sampleReady = false

structure Inv (s : State π) : Prop where
  flags : Flags s.sampler s.worker
  attached : s.attached = !s.sampler.stopRequested

theorem Flags.exclusive {s : LsmWindowsSamplerState π} {worker : Worker} (h : Flags s worker) :
    ¬(s.sampleReady = true ∧ s.sampleInProgress = true) := by
  cases worker <;> simp only [Flags] at h <;> simp [h]

theorem Flags.ready_not_writing {s : LsmWindowsSamplerState π} {worker : Worker} (h : Flags s worker)
    (hready : s.sampleReady = true) : worker.writing = false := by
  cases worker <;> simp only [Flags] at h <;> simp_all [Worker.writing]

/-- Between samples. -/
def Worker.idle : Worker → Bool
  | .waiting | .woken | .exited => true
  | _ => false

theorem flags_idle {s : LsmWindowsSamplerState π} {worker : Worker} (h : worker.idle = true) :
    Flags s worker ↔ s.sampleInProgress = false ∧ ¬(s.requestPending ∧ s.sampleReady) := by
  cases worker <;> first | rfl | cases h

theorem flags_sampling {s : LsmWindowsSamplerState π} {worker : Worker} (h : worker.idle = false) :
    Flags s worker ↔ s.requestPending = false ∧ s.sampleInProgress = true ∧ s.sampleReady = false := by
  cases worker <;> first | rfl | cases h

theorem Inv.init (telemetry : π) : Inv (lsmMonitorPlatformInit telemetry) :=
  ⟨⟨rfl, by simp [lsmMonitorPlatformInit]⟩, rfl⟩

/-- A step of the worker within a sample. -/
theorem Inv.within {s t : State π} (h : Inv s) (hfrom : s.worker.idle = false) (hto : t.worker.idle = false)
    (hpending : t.sampler.requestPending = s.sampler.requestPending)
    (hprogress : t.sampler.sampleInProgress = s.sampler.sampleInProgress)
    (hready : t.sampler.sampleReady = s.sampler.sampleReady)
    (hstop : t.sampler.stopRequested = s.sampler.stopRequested) (hattached : t.attached = s.attached) : Inv t := by
  refine ⟨?_, by rw [hattached, hstop, h.attached]⟩
  rw [flags_sampling hto, hpending, hprogress, hready]
  exact (flags_sampling hfrom).mp h.flags

theorem Inv.update {s : State π} (h : Inv s) : Inv (lsmMonitorPlatformUpdate s) := by
  obtain ⟨hflags, hattached⟩ := h
  refine ⟨?_, ?_⟩
  · cases hw : s.worker <;> rw [hw] at hflags <;> simp only [Flags] at hflags ⊢ <;>
      cases ha : s.attached <;> cases hr : s.sampler.sampleReady <;> cases hp : s.sampler.requestPending <;>
      cases hs : s.sampler.stopRequested <;> simp_all [lsmMonitorPlatformUpdate]
  · unfold lsmMonitorPlatformUpdate
    split
    · exact hattached
    · dsimp only
      split <;> split <;> exact hattached

theorem Inv.requestTopologyRefresh {s : State π} (h : Inv s) (hguarded : Guarded s .requestTopologyRefresh) :
    Inv (lsmMonitorPlatformRequestTopologyRefresh s) := by
  unfold lsmMonitorPlatformRequestTopologyRefresh
  split
  · exact h
  · rename_i hattached
    obtain ⟨hunread, hidle⟩ := hguarded (by simpa using hattached)
    dsimp only
    have hbetween : s.worker.idle = true := by
      rw [← Bool.not_eq_false]
      intro hsampling
      rw [((flags_sampling hsampling).mp h.flags).2.1] at hidle
      cases hidle
    split
    · exact ⟨(flags_idle hbetween).mpr ⟨hidle, by simp [hunread]⟩, h.attached⟩
    · exact ⟨(flags_idle hbetween).mpr ⟨hidle, by simp [hunread]⟩, h.attached⟩

theorem Inv.look {s : State π} (h : Inv s) (hworker : s.worker = .woken) : Inv (samplerThreadLook s) := by
  have hflags := h.flags
  rw [hworker] at hflags
  obtain ⟨hidle, hnot⟩ := hflags
  unfold samplerThreadLook
  split
  · exact ⟨⟨hidle, hnot⟩, h.attached⟩
  · split
    · exact ⟨⟨hidle, hnot⟩, h.attached⟩
    · rename_i hpending
      have hunread : s.sampler.sampleReady = false := by
        cases hready : s.sampler.sampleReady with
        | false => rfl
        | true => exact absurd ⟨by simpa using hpending, hready⟩ hnot
      exact ⟨⟨rfl, rfl, hunread⟩, h.attached⟩

theorem Inv.step {s t : State π} {a : Action π} (h : Inv s) (hguarded : Guarded s a)
    (hstep : machine.step s a = some t) : Inv t := by
  cases machine_step hstep with
  | update => exact h.update
  | requestTopologyRefresh => exact h.requestTopologyRefresh hguarded
  | destroy =>
    unfold lsmMonitorPlatformDestroy
    split
    · exact h
    · refine ⟨?_, rfl⟩
      cases hbetween : s.worker.idle with
      | true => exact (flags_idle hbetween).mpr ⟨((flags_idle hbetween).mp h.flags).1, by simp⟩
      | false => exact (flags_sampling hbetween).mpr ⟨rfl, ((flags_sampling hbetween).mp h.flags).2⟩
  | setEvent hringing =>
    refine ⟨?_, h.attached⟩
    cases hbetween : s.worker.idle with
    | true => exact (flags_idle hbetween).mpr ((flags_idle hbetween).mp h.flags)
    | false => exact (flags_sampling hbetween).mpr ((flags_sampling hbetween).mp h.flags)
  | wake hworker hsignalled =>
    have hflags := h.flags
    rw [hworker] at hflags
    exact ⟨hflags, h.attached⟩
  | look hworker => exact h.look hworker
  | collect telemetry hworker =>
    have hsampling : s.worker.idle = false := by
      cases hw : s.worker <;> first | rfl | simp [hw, Worker.writing] at hworker
    exact h.within hsampling hsampling rfl rfl rfl rfl rfl
  | enter force now hworker => exact h.within (by rw [hworker]; rfl) rfl rfl rfl rfl rfl rfl
  | refreshTopology p tick cpuOk memoryOk hworker =>
    unfold refreshTopologyAndDevices
    split
    · exact h.within (by rw [hworker]; rfl) rfl rfl rfl rfl rfl rfl
    · exact h.within (by rw [hworker]; rfl) rfl rfl rfl rfl rfl rfl
  | beginDiscovery p tick counts hworker => exact h.within (by rw [hworker]; rfl) rfl rfl rfl rfl rfl rfl
  | leave p counts hworker =>
    unfold windowsSampleOnceLeave
    split
    · exact h.within (by rw [hworker]; rfl) rfl rfl rfl rfl rfl rfl
    · exact h.within (by rw [hworker]; rfl) rfl rfl rfl rfl rfl rfl
  | complete sampled hworker =>
    have hflags := h.flags
    rw [hworker] at hflags
    exact ⟨⟨rfl, by simp [samplerThreadComplete, hflags.1]⟩, h.attached⟩

/-! ### The samples as a one-place buffer -/

/-- Whether an update would copy the shared sample now. -/
def State.copies (s : State π) : Bool := s.attached && s.sampler.sampleReady

/-- Taking a request claims the buffer; completing the sample fills it, or
abandons it when the sample does not count or stop was requested meanwhile. -/
def event (s : State π) : Action π → List (SlotEvent (π × Nat × ℚ))
  | .update => if s.copies then [.take (lsmMonitorPlatformUpdate s).monitor.snapshot] else []
  | .look => if !s.sampler.stopRequested && s.sampler.requestPending then [.claim] else []
  | .complete =>
    if s.worker = .returned true ∧ s.sampler.stopRequested = false then [.put s.sampler.sample.snapshot] else [.abandon]
  | _ => []

/-- The buffer a state stands for. -/
def slotOf (s : State π) : Slot (π × Nat × ℚ) :=
  if s.worker.idle then if s.sampler.sampleReady then .full s.sampler.sample.snapshot else .empty else .claimed

theorem update_frame (s : State π) :
    ∃ monitor requestPending sampleReady ringing, lsmMonitorPlatformUpdate s =
      {s with monitor, ringing, sampler := {s.sampler with requestPending, sampleReady}} := by
  unfold lsmMonitorPlatformUpdate
  split
  · exact ⟨_, _, _, _, rfl⟩
  · dsimp only
    split <;> split <;> exact ⟨_, _, _, _, rfl⟩

theorem update_copies {s : State π} (hc : s.copies = true) :
    (lsmMonitorPlatformUpdate s).monitor.snapshot = s.sampler.sample.snapshot ∧
      (lsmMonitorPlatformUpdate s).sampler.sampleReady = false := by
  simp only [State.copies, Bool.and_eq_true] at hc
  unfold lsmMonitorPlatformUpdate
  simp only [hc.1, hc.2, Bool.not_true, Bool.false_eq_true, if_false, if_true]
  split <;> exact ⟨rfl, rfl⟩

theorem update_keeps {s : State π} (hc : s.copies = false) :
    (lsmMonitorPlatformUpdate s).sampler.sampleReady = s.sampler.sampleReady := by
  unfold lsmMonitorPlatformUpdate
  split
  · rfl
  · rename_i hattached
    have hunread : s.sampler.sampleReady = false := by
      simpa [State.copies, show s.attached = true by simpa using hattached] using hc
    simp only [hunread, Bool.false_eq_true, if_false]
    split <;> simp [hunread]

variable [DecidableEq π]

theorem update_slot {s : State π} (h : Inv s) :
    Slot.machine.run (slotOf s) (event s .update) = some (slotOf (lsmMonitorPlatformUpdate s)) := by
  obtain ⟨monitor, requestPending, sampleReady, ringing, hframe⟩ := update_frame s
  have hworker : (lsmMonitorPlatformUpdate s).worker = s.worker := by rw [hframe]
  have hsample : (lsmMonitorPlatformUpdate s).sampler.sample = s.sampler.sample := by rw [hframe]
  cases hc : s.copies with
  | false =>
    simp only [event, hc, Bool.false_eq_true, if_false, slotOf, hworker, hsample, update_keeps hc]
    rfl
  | true =>
    obtain ⟨hsnap, hread⟩ := update_copies hc
    have hready : s.sampler.sampleReady = true := by
      simp only [State.copies, Bool.and_eq_true] at hc
      exact hc.2
    have hbetween : s.worker.idle = true := by
      rw [← Bool.not_eq_false]
      intro hsampling
      rw [((flags_sampling hsampling).mp h.flags).2.2] at hready
      cases hready
    have hfull : slotOf s = .full s.sampler.sample.snapshot := by simp [slotOf, hbetween, hready]
    have hempty : slotOf (lsmMonitorPlatformUpdate s) = .empty := by simp [slotOf, hworker, hbetween, hread]
    rw [hfull, hempty]
    simp only [event, hc, if_true, hsnap, Machine.run, Slot.machine, Slot.next]
    rfl

theorem step_slot {s t : State π} {a : Action π} (h : Inv s) (hstep : machine.step s a = some t) :
    Slot.machine.run (slotOf s) (event s a) = some (slotOf t) := by
  have hflags := h.flags
  cases machine_step hstep with
  | update => exact update_slot h
  | requestTopologyRefresh =>
    unfold lsmMonitorPlatformRequestTopologyRefresh
    split
    · rfl
    · dsimp only
      split <;> rfl
  | destroy =>
    unfold lsmMonitorPlatformDestroy
    split <;> rfl
  | setEvent hringing => rfl
  | wake hworker hsignalled => simp [event, slotOf, hworker, Worker.idle, Machine.run]
  | look hworker =>
    rw [hworker] at hflags
    simp only [event, samplerThreadLook]
    cases hstop : s.sampler.stopRequested <;> cases hpending : s.sampler.requestPending <;>
      simp_all [slotOf, Worker.idle, Machine.run, Slot.machine, Slot.next, Flags]
  | collect telemetry hworker =>
    have hsampling : s.worker.idle = false := by
      cases hw : s.worker <;> first | rfl | simp [hw, Worker.writing] at hworker
    simp [event, slotOf, hsampling, Machine.run]
  | enter force now hworker => simp [event, slotOf, windowsSampleOnceEnter, hworker, Worker.idle, Machine.run]
  | refreshTopology p tick cpuOk memoryOk hworker =>
    unfold refreshTopologyAndDevices
    split <;> simp [event, slotOf, hworker, Worker.idle, Machine.run]
  | beginDiscovery p tick counts hworker =>
    simp [event, slotOf, Windows.beginDiscovery, hworker, Worker.idle, Machine.run]
  | leave p counts hworker =>
    unfold windowsSampleOnceLeave
    split <;> simp [event, slotOf, hworker, Worker.idle, Machine.run]
  | complete sampled hworker =>
    rw [hworker] at hflags
    simp only [Flags] at hflags
    cases sampled <;> cases hstop : s.sampler.stopRequested <;>
      simp [event, slotOf, samplerThreadComplete, hworker, hstop, hflags.2.2, Worker.idle, Machine.run, Slot.machine,
        Slot.next]

/-- **The hand-off, where topology requests wait for the flags.** On every
schedule in which a topology is requested only while no sample is under way and
none unread: no sample is under way while one is ready; an update that would copy
the shared sample finds the worker not writing it; the samples pass through a
one-place buffer. On every schedule at all, the worker does not sleep on a
request without a ring on its way. -/
theorem sampler_handoff (telemetry : π) {s : State π} {actions : List (Action π)}
    (hrun : machine.run (lsmMonitorPlatformInit telemetry) actions = some s)
    (hguarded : machine.Admissible Guarded (lsmMonitorPlatformInit telemetry) actions) :
    ¬(s.sampler.sampleReady = true ∧ s.sampler.sampleInProgress = true) ∧
    (s.copies = true → s.worker.writing = false) ∧
    (∃ slot, Slot.machine.run .empty (machine.trace event (lsmMonitorPlatformInit telemetry) actions) = some slot ∧
      puts (machine.trace event (lsmMonitorPlatformInit telemetry) actions) =
        takes (machine.trace event (lsmMonitorPlatformInit telemetry) actions) ++ slot.held) ∧
    (s.sampler.requestPending = true → s.worker = .waiting → s.sampler.signalled = true ∨ 0 < s.ringing) := by
  have hend : Slot.machine.run .empty (machine.trace event (lsmMonitorPlatformInit telemetry) actions) =
      some (slotOf s) ∧ Inv s := by
    have hstart : Slot.machine.run .empty ([] : List (SlotEvent (π × Nat × ℚ))) =
        some (slotOf (lsmMonitorPlatformInit telemetry)) ∧ Inv (lsmMonitorPlatformInit telemetry) :=
      ⟨rfl, .init telemetry⟩
    refine machine.run_trace_invariant event Guarded (fun log s => Slot.machine.run .empty log = some (slotOf s) ∧ Inv s)
      ?_ hstart hguarded hrun
    intro log s a t ⟨hlog, h⟩ hrule hstep
    refine ⟨?_, h.step hrule hstep⟩
    rw [Machine.run_append, hlog]
    exact step_slot h hstep
  obtain ⟨hslot, hinv⟩ := hend
  refine ⟨hinv.flags.exclusive, ?_, ⟨slotOf s, hslot, Slot.puts_eq hslot⟩, request_heard hrun⟩
  intro hcopies
  simp only [State.copies, Bool.and_eq_true] at hcopies
  exact hinv.flags.ready_not_writing hcopies.2

/-! ### Two schedules -/

/-- One sample, then a topology request with the sample unread. -/
def unreadSample : List (Action Nat) :=
  [.setEvent, .wake, .look, .enter 16, .collect 7, .refreshTopology 16 true true, .beginDiscovery, .leave, .complete,
    .requestTopologyRefresh, .wake, .look, .enter 1016]

/-- The next sample is written while an update copies the last one. -/
theorem unread_sample_overwritten :
    ∃ s, machine.run (lsmMonitorPlatformInit 0) unreadSample = some s ∧
      s.sampler.sampleReady = true ∧ s.sampler.sampleInProgress = true ∧ s.copies = true ∧ s.worker.writing = true :=
  machine.run_decided (p := fun s => s.sampler.sampleReady = true ∧ s.sampler.sampleInProgress = true ∧
    s.copies = true ∧ s.worker.writing = true)
    (show (machine.run (lsmMonitorPlatformInit 0) unreadSample).map _ = some true by decide)

/-- The same request after the update. -/
def readSample : List (Action Nat) :=
  [.setEvent, .wake, .look, .enter 16, .collect 7, .refreshTopology 16 true true, .beginDiscovery, .leave, .complete,
    .update, .requestTopologyRefresh, .setEvent, .wake, .look]

instance (s : State π) : DecidablePred (Guarded s)
  | .requestTopologyRefresh =>
    inferInstanceAs (Decidable (s.attached = true → s.sampler.sampleReady = false ∧ s.sampler.sampleInProgress = false))
  | .update | .destroy | .setEvent | .wake | .look | .collect _ | .enter _ | .refreshTopology _ _ _ | .beginDiscovery
  | .leave | .complete => .isTrue trivial

theorem sampler_handoff_read :
    ∃ s, machine.run (lsmMonitorPlatformInit 0) readSample = some s ∧ s.sampler.sampleInProgress = true ∧
      puts (machine.trace event (lsmMonitorPlatformInit 0) readSample) = [(7, 1, 16 / 1000)] ∧
      ¬(s.sampler.sampleReady = true ∧ s.sampler.sampleInProgress = true) := by
  obtain ⟨s, hrun, hprogress⟩ := machine.run_decided (p := fun s : State Nat => s.sampler.sampleInProgress = true)
    (show (machine.run (lsmMonitorPlatformInit 0) readSample).map _ = some true by decide)
  have hputs : puts (machine.trace event (lsmMonitorPlatformInit 0) readSample) = [(7, 1, 16 / 1000)] := by
    decide +kernel
  have hguarded : machine.Admissible Guarded (lsmMonitorPlatformInit 0) readSample := by decide
  exact ⟨s, hrun, hprogress, hputs, (sampler_handoff 0 hrun hguarded).1⟩

end SystemMonitor.Windows
