import Mathlib.Data.List.Chain
import SystemMonitor.Monitor.Sampler

/-! What the sampler's three flags guarantee on every schedule.

`Inv` is the inductive invariant: where the worker stands decides which flags may
be up. From it, an update never copies while the worker writes, the samples pass
through a one-place buffer (`slotSimulation`), and the generations an observer
sees are successors under the rule by which the overview history detects gaps. -/
namespace SystemMonitor.Monitor
open Lib SlotEvent

variable {π : Type} {due : ℚ → ℚ → ℚ → Bool}

/-- At most one of the three hand-off flags is up. -/
def AtMostOne (s : LsmLinuxSamplerState π) : Prop :=
  ¬(s.requestPending ∧ s.sampleInProgress) ∧ ¬(s.requestPending ∧ s.sampleReady) ∧
    ¬(s.sampleInProgress ∧ s.sampleReady)

/-- The flags each phase of the worker allows. -/
def Flags (s : LsmLinuxSamplerState π) : Worker → Prop
  | .initialising => s.requestPending = true ∧ s.sampleInProgress = false ∧ s.sampleReady = false
  | .waiting | .exited => s.sampleInProgress = false ∧ ¬(s.requestPending ∧ s.sampleReady)
  | .entering _ | .sampling _ | .returned _ =>
    s.requestPending = false ∧ s.sampleInProgress = true ∧ s.sampleReady = false

structure Inv (s : State π) : Prop where
  flags : Flags s.sampler s.worker
  /-- Stop is requested by detaching the monitor, and by nothing else. -/
  attached : s.attached = !s.sampler.stopRequested
  generation : s.sampler.sample.sampleGeneration < 2 ^ 64

theorem Inv.atMostOne {s : State π} (h : Inv s) : AtMostOne s.sampler := by
  have hf := h.flags
  unfold AtMostOne
  cases hw : s.worker <;> rw [hw] at hf <;> simp only [Flags] at hf <;> simp [hf]

/-- A ready sample is not being written. -/
theorem Inv.ready_not_writing {s : State π} (h : Inv s) (hr : s.sampler.sampleReady = true) :
    s.worker.writing = false := by
  have hf := h.flags
  cases hw : s.worker <;> rw [hw] at hf <;> simp_all [Flags, Worker.writing]

theorem init_inv (now : ℚ) (telemetry : π) : Inv (lsmMonitorPlatformInit now telemetry) :=
  ⟨⟨rfl, rfl, rfl⟩, rfl, by simp [lsmMonitorPlatformInit]⟩

/-! ### What each thread's step keeps -/

/-- An update publishes and asks for the next sample; the rest is the worker's. -/
theorem update_frame (s : State π) :
    ∃ monitor requestPending sampleReady, lsmMonitorPlatformUpdate s =
      {s with monitor, sampler := {s.sampler with requestPending, sampleReady}} := by
  unfold lsmMonitorPlatformUpdate
  split
  · exact ⟨_, _, _, rfl⟩
  · dsimp only
    split <;> split <;> exact ⟨_, _, _, rfl⟩

theorem update_worker (s : State π) : (lsmMonitorPlatformUpdate s).worker = s.worker := by
  obtain ⟨monitor, requestPending, sampleReady, hupdate⟩ := update_frame s
  rw [hupdate]

theorem update_sample (s : State π) : (lsmMonitorPlatformUpdate s).sampler.sample = s.sampler.sample := by
  obtain ⟨monitor, requestPending, sampleReady, hupdate⟩ := update_frame s
  rw [hupdate]

/-- A topology request raises its flag, and asks for a sample if none is due to be read,
pending or under way. -/
theorem requestTopologyRefresh_cases (s : State π) :
    s.attached = false ∧ lsmMonitorPlatformRequestTopologyRefresh s = s ∨
    ∃ requestPending,
      (requestPending = s.sampler.requestPending ∨
        requestPending = true ∧ s.sampler.sampleReady = false ∧ s.sampler.sampleInProgress = false) ∧
      lsmMonitorPlatformRequestTopologyRefresh s =
        {s with sampler := {s.sampler with
          requestPending
          backend := {s.sampler.backend with topologyRefreshRequested := true}}} := by
  unfold lsmMonitorPlatformRequestTopologyRefresh
  split
  · rename_i hdetached
    exact Or.inl ⟨by simpa using hdetached, rfl⟩
  · right
    dsimp only
    split
    · rename_i hidle
      simp only [Bool.and_eq_true, Bool.not_eq_true'] at hidle
      exact ⟨true, Or.inr ⟨rfl, hidle.1.1, hidle.2⟩, rfl⟩
    · exact ⟨_, Or.inl rfl, rfl⟩

theorem destroy_cases (s : State π) :
    lsmMonitorPlatformDestroy s = {s with sampler := {s.sampler with stopRequested := true}, attached := false} ∨
    lsmMonitorPlatformDestroy s = s := by
  unfold lsmMonitorPlatformDestroy
  split
  · exact Or.inl rfl
  · exact Or.inr rfl

theorem nextGeneration_lt (g : Nat) : nextGeneration g < 2 ^ 64 := by
  unfold nextGeneration
  split
  · decide
  · exact Nat.mod_lt _ (by decide)

theorem update_inv {s : State π} (h : Inv s) : Inv (lsmMonitorPlatformUpdate s) := by
  obtain ⟨hf, ha, hg⟩ := h
  refine ⟨?_, ?_, by rw [update_sample]; exact hg⟩
  · rw [update_worker]
    cases hw : s.worker <;> rw [hw] at hf <;> simp only [Flags] at hf ⊢ <;>
      cases hd : s.attached <;> cases hr : s.sampler.sampleReady <;>
      cases hp : s.sampler.requestPending <;> simp_all [lsmMonitorPlatformUpdate]
  · obtain ⟨monitor, requestPending, sampleReady, hupdate⟩ := update_frame s
    rw [hupdate]
    exact ha

theorem requestTopologyRefresh_inv {s : State π} (h : Inv s) :
    Inv (lsmMonitorPlatformRequestTopologyRefresh s) := by
  obtain ⟨hf, ha, hg⟩ := h
  rcases requestTopologyRefresh_cases s with ⟨-, hrequest⟩ | ⟨requestPending, hpending, hrequest⟩
  · rw [hrequest]
    exact ⟨hf, ha, hg⟩
  · rw [hrequest]
    refine ⟨?_, ha, hg⟩
    rcases hpending with rfl | ⟨rfl, hunread, hidle⟩
    · cases hw : s.worker <;> rw [hw] at hf <;> simpa [Flags] using hf
    · -- With no sample under way the worker is at its head, where a request may be raised.
      cases hw : s.worker <;> rw [hw] at hf <;> simp_all [Flags]

theorem destroy_inv {s : State π} (h : Inv s) : Inv (lsmMonitorPlatformDestroy s) := by
  obtain ⟨hf, ha, hg⟩ := h
  rcases destroy_cases s with hdestroy | hdestroy <;> rw [hdestroy]
  · refine ⟨?_, rfl, hg⟩
    cases hw : s.worker <;> rw [hw] at hf <;> simpa [Flags] using hf
  · exact ⟨hf, ha, hg⟩

/-- Everything a worker step can do. -/
theorem worker_cases {s t : State π} {a : Action π} (h : samplerThreadMain due s s.worker a = some t) :
    (∃ telemetry, a = .collect telemetry ∧ s.worker.writing = true ∧
      t = {s with sampler := {s.sampler with sample := {s.sampler.sample with telemetry}}}) ∨
    (∃ storage hardware, a = .initialised storage hardware ∧ s.worker = .initialising ∧
      t = {s with
        worker := .waiting
        sampler := {s.sampler with backend := {s.sampler.backend with
          topologyRefreshRequested := s.sampler.backend.topologyRefreshRequested || !(storage && hardware)}}}) ∨
    (a = .take ∧ s.worker = .waiting ∧ s.sampler.requestPending = true ∧ s.sampler.stopRequested = false ∧
      t = {s with
        worker := .entering s.sampler.backend.topologyRefreshRequested
        sampler := {s.sampler with
          requestPending := false
          sampleInProgress := true
          backend := {s.sampler.backend with topologyRefreshRequested := false}}}) ∨
    (a = .exit ∧ s.worker = .waiting ∧ s.sampler.stopRequested = true ∧ t = {s with worker := .exited}) ∨
    (∃ force now, a = .enter now ∧ s.worker = .entering force ∧
      sampleOnceEnter due s.sampler.backend now force = none ∧ t = {s with worker := .returned false}) ∨
    (∃ force now backend p, a = .enter now ∧ s.worker = .entering force ∧
      sampleOnceEnter due s.sampler.backend now force = some (backend, p) ∧
      t = {s with worker := .sampling p, sampler := {s.sampler with backend}}) ∨
    (∃ p storage hardware, a = .leave storage hardware ∧ s.worker = .sampling p ∧
      t = {s with
        worker := .returned true
        sampler := {s.sampler with
          backend := (sampleOnceLeave s.sampler.backend s.sampler.sample p storage hardware).1
          sample := (sampleOnceLeave s.sampler.backend s.sampler.sample p storage hardware).2}}) ∨
    (∃ sampled, a = .complete ∧ s.worker = .returned sampled ∧
      t = {s with
        worker := .waiting
        sampler := {s.sampler with
          sampleInProgress := false
          sampleReady := if sampled && !s.sampler.stopRequested then true else s.sampler.sampleReady}}) := by
  cases hw : s.worker <;> cases a <;> simp only [hw, samplerThreadMain, reduceCtorEq] at h
  case initialising.collect telemetry => exact .inl ⟨telemetry, rfl, rfl, by cases h; rfl⟩
  case sampling.collect p telemetry => exact .inl ⟨telemetry, rfl, rfl, by cases h; rfl⟩
  case initialising.initialised storage hardware =>
    refine .inr (.inl ?_)
    refine ⟨storage, hardware, rfl, rfl, ?_⟩
    cases hboth : storage && hardware
    · rw [if_neg (by simp [hboth])] at h
      cases h
      simp
    · rw [if_pos hboth] at h
      cases h
      simp
  case waiting.take =>
    split at h <;> cases h
    rename_i hc
    simp only [Bool.and_eq_true, Bool.not_eq_true'] at hc
    exact .inr (.inr (.inl ⟨rfl, rfl, hc.1, hc.2, rfl⟩))
  case waiting.exit =>
    split at h <;> cases h
    rename_i hc
    exact .inr (.inr (.inr (.inl ⟨rfl, rfl, hc, rfl⟩)))
  case entering.enter force now =>
    refine .inr (.inr (.inr (.inr ?_)))
    split at h <;> cases h
    · rename_i he
      exact .inl ⟨force, now, rfl, rfl, he, rfl⟩
    · rename_i backend p he
      exact .inr (.inl ⟨force, now, backend, p, rfl, rfl, he, rfl⟩)
  case sampling.leave p storage hardware =>
    cases h
    exact .inr (.inr (.inr (.inr (.inr (.inr (.inl ⟨p, storage, hardware, rfl, rfl, rfl⟩))))))
  case returned.complete sampled =>
    cases h
    exact .inr (.inr (.inr (.inr (.inr (.inr (.inr ⟨sampled, rfl, rfl, rfl⟩))))))

theorem worker_inv {s t : State π} {a : Action π} (h : Inv s)
    (hstep : samplerThreadMain due s s.worker a = some t) : Inv t := by
  obtain ⟨hf, ha, hg⟩ := h
  rcases worker_cases hstep with ⟨_, _, _, rfl⟩ | ⟨_, _, _, hw, rfl⟩ | ⟨_, hw, _, _, rfl⟩ |
    ⟨_, hw, _, rfl⟩ | ⟨_, _, _, hw, _, rfl⟩ | ⟨_, _, _, _, _, hw, _, rfl⟩ | ⟨_, _, _, _, hw, rfl⟩ |
    ⟨_, _, hw, rfl⟩
  · refine ⟨?_, ha, hg⟩
    cases hw : s.worker <;> rw [hw] at hf <;> simpa [Flags] using hf
  all_goals rw [hw] at hf
  · exact ⟨⟨hf.2.1, by simp [hf.2.2]⟩, ha, hg⟩
  · refine ⟨⟨rfl, rfl, ?_⟩, ha, hg⟩
    have hnot := hf.2
    simp_all
  · exact ⟨hf, ha, hg⟩
  · exact ⟨hf, ha, hg⟩
  · exact ⟨hf, ha, hg⟩
  · exact ⟨hf, ha, nextGeneration_lt _⟩
  · exact ⟨⟨rfl, by simp [hf.1]⟩, ha, hg⟩

theorem step_inv {s t : State π} {a : Action π} (h : Inv s) (hstep : step due s a = some t) : Inv t := by
  cases a <;> simp only [step, Option.some.injEq] at hstep
  case update => exact hstep ▸ update_inv h
  case requestTopologyRefresh => exact hstep ▸ requestTopologyRefresh_inv h
  case destroy => exact hstep ▸ destroy_inv h
  all_goals exact worker_inv h hstep

/-! ### The samples as a one-place buffer -/

/-- What a publication carries over. -/
def LsmMonitor.snapshot (m : LsmMonitor π) : π × Nat × ℚ :=
  (m.telemetry, m.sampleGeneration, m.sampleMonotonicSeconds)

/-- Whether an update would copy the shared sample now. -/
def State.copies (s : State π) : Bool := s.attached && s.sampler.sampleReady

/-- An accepted `sample_once` claims the buffer; its completion fills it, or
abandons it when stop was requested meanwhile; an update that copies takes what
the public snapshot then shows. -/
def event (due : ℚ → ℚ → ℚ → Bool) (s : State π) : Action π → List (SlotEvent (π × Nat × ℚ))
  | .update => if s.copies then [.take (lsmMonitorPlatformUpdate s).monitor.snapshot] else []
  | .enter now =>
    match s.worker with
    | .entering force => if (sampleOnceEnter due s.sampler.backend now force).isSome then [.claim] else []
    | _ => []
  | .complete =>
    if s.worker = .returned true then
      if s.sampler.stopRequested then [.abandon] else [.put s.sampler.sample.snapshot]
    else []
  | _ => []

/-- The buffer a state stands for. -/
def slotOf (s : State π) : Slot (π × Nat × ℚ) :=
  match s.worker with
  | .sampling _ | .returned true => .claimed
  | _ => if s.sampler.sampleReady then .full s.sampler.sample.snapshot else .empty

theorem update_copies {s : State π} (hc : s.copies = true) :
    (lsmMonitorPlatformUpdate s).monitor.snapshot = s.sampler.sample.snapshot ∧
      (lsmMonitorPlatformUpdate s).sampler.sampleReady = false := by
  simp only [State.copies, Bool.and_eq_true] at hc
  unfold lsmMonitorPlatformUpdate
  simp only [hc.1, hc.2, Bool.not_true, Bool.false_eq_true, if_false, if_true]
  split <;> exact ⟨rfl, rfl⟩

theorem update_keeps {s : State π} (hc : s.copies = false) :
    slotOf (lsmMonitorPlatformUpdate s) = slotOf s := by
  have hr : (lsmMonitorPlatformUpdate s).sampler.sampleReady = s.sampler.sampleReady := by
    unfold lsmMonitorPlatformUpdate
    simp only [State.copies, Bool.and_eq_false_iff] at hc
    split
    · rfl
    · rename_i hatt
      have hready : s.sampler.sampleReady = false := by
        rcases hc with hc | hc
        · simp [hc] at hatt
        · exact hc
      simp only [hready, Bool.false_eq_true, if_false]
      split <;> simp [hready]
  unfold slotOf
  rw [update_worker, update_sample, hr]

variable [DecidableEq π]

theorem update_slot {s : State π} (h : Inv s) :
    Slot.machine.run (slotOf s) (event due s .update) = some (slotOf (lsmMonitorPlatformUpdate s)) := by
  cases hc : s.copies
  · simp only [event, hc, Bool.false_eq_true, if_false, update_keeps hc]
    rfl
  · obtain ⟨hsnap, hready⟩ := update_copies hc
    have hwas : s.sampler.sampleReady = true := by
      simp only [State.copies, Bool.and_eq_true] at hc
      exact hc.2
    have hfull : slotOf s = .full s.sampler.sample.snapshot := by
      have hf := h.flags
      unfold slotOf
      cases hw : s.worker <;> rw [hw] at hf <;> simp_all [Flags]
    have hempty : slotOf (lsmMonitorPlatformUpdate s) = .empty := by
      have hf := h.flags
      unfold slotOf
      rw [update_worker, hready]
      cases hw : s.worker <;> rw [hw] at hf <;> simp_all [Flags]
    rw [hfull, hempty]
    simp only [event, hc, if_true, hsnap, Machine.run, Slot.machine, Slot.next]
    rfl

theorem worker_slot {s t : State π} {a : Action π} (h : Inv s)
    (hstep : samplerThreadMain due s s.worker a = some t) :
    Slot.machine.run (slotOf s) (event due s a) = some (slotOf t) := by
  have hf := h.flags
  rcases worker_cases hstep with ⟨telemetry, rfl, hw, rfl⟩ | ⟨_, _, rfl, hw, rfl⟩ | ⟨rfl, hw, _, _, rfl⟩ |
    ⟨rfl, hw, _, rfl⟩ | ⟨force, now, rfl, hw, he, rfl⟩ | ⟨force, now, _, _, rfl, hw, he, rfl⟩ |
    ⟨p, _, _, rfl, hw, rfl⟩ | ⟨sampled, rfl, hw, rfl⟩
  · -- the buffer's content is not visible while the worker writes it
    cases hk : s.worker <;> rw [hk] at hf hw <;> simp_all [Flags, Worker.writing, event, slotOf, Machine.run]
  all_goals rw [hw] at hf
  · simp [event, slotOf, hw, Machine.run]
  · have hnot : s.sampler.sampleReady = false := by
      have := hf.2
      simp_all
    simp [event, slotOf, hw, hnot, Machine.run]
  · simp [event, slotOf, hw, Machine.run]
  · simp [event, slotOf, hw, he, Machine.run, hf.2.2]
  · simp [event, slotOf, hw, he, Machine.run, Slot.machine, Slot.next, hf.2.2]
  · simp [event, slotOf, hw, Machine.run]
  · cases sampled <;> cases hs : s.sampler.stopRequested <;>
      simp [event, slotOf, hw, hs, hf.2.2, Machine.run, Slot.machine, Slot.next]

/-- The sampler's samples pass through a one-place buffer. -/
def slotSimulation (due : ℚ → ℚ → ℚ → Bool) : Simulation (machine (π := π) due) (event due) Slot.machine where
  Rel := fun s slot => Inv s ∧ slot = slotOf s
  step := by
    intro s slot a t hrel hstep
    obtain ⟨h, rfl⟩ := hrel
    refine ⟨slotOf t, ?_, step_inv h hstep, rfl⟩
    have hstep' : step due s a = some t := hstep
    cases a <;> simp only [step, Option.some.injEq] at hstep'
    case update => exact hstep' ▸ update_slot h
    case requestTopologyRefresh =>
      subst hstep'
      rcases requestTopologyRefresh_cases s with ⟨-, hrequest⟩ | ⟨requestPending, -, hrequest⟩ <;> rw [hrequest] <;> rfl
    case destroy =>
      subst hstep'
      rcases destroy_cases s with hdestroy | hdestroy <;> rw [hdestroy] <;> rfl
    all_goals exact worker_slot h hstep'

/-! ### Generations -/

/-- The generation `lsm_overview_history_record` expects after `last`: any other
makes it mark a gap. -/
def expected (last : Nat) : Nat := if last = uint64Max then 1 else last + 1

theorem nextGeneration_eq {g : Nat} (h : g < 2 ^ 64) : nextGeneration g = expected g := by
  unfold nextGeneration expected uint64Max
  split <;> split <;> omega

/-- `g`, its successor, the successor of that, … -/
def Successive : Nat → List Nat → Prop
  | _, [] => True
  | g, x :: rest => x = g ∧ Successive (nextGeneration g) rest

theorem Successive.isChain {g : Nat} {gs : List Nat} (h : Successive g gs) (hg : g < 2 ^ 64) :
    gs.IsChain fun a b => b = expected a := by
  induction gs generalizing g with
  | nil => exact .nil
  | cons x rest ih =>
    obtain ⟨rfl, hrest⟩ := h
    have htail := ih hrest (nextGeneration_lt x)
    cases rest with
    | nil => exact .singleton x
    | cons y rest =>
      refine .cons_cons ?_ htail
      rw [hrest.1, nextGeneration_eq hg]

/-- The generation the next completed sample will carry. -/
def pendingGeneration (s : State π) : Nat :=
  if s.worker = .returned true then s.sampler.sample.sampleGeneration
  else nextGeneration s.sampler.sample.sampleGeneration

omit [DecidableEq π] in
theorem pendingGeneration_lt {s : State π} (h : Inv s) : pendingGeneration s < 2 ^ 64 := by
  unfold pendingGeneration
  split
  · exact h.generation
  · exact nextGeneration_lt _

omit [DecidableEq π] in
/-- A step fills the buffer with the pending generation and moves on to its
successor, or it leaves the pending generation alone, or stop was requested. -/
theorem step_generation {s t : State π} {a : Action π} (hstep : step due s a = some t) :
    (∃ x, puts (event due s a) = [x] ∧ x.2.1 = pendingGeneration s ∧
      pendingGeneration t = nextGeneration (pendingGeneration s)) ∨
    (puts (event due s a) = [] ∧ (pendingGeneration t = pendingGeneration s ∨ t.sampler.stopRequested = true)) := by
  cases a <;> simp only [step, Option.some.injEq] at hstep
  case update =>
    subst hstep
    refine .inr ⟨?_, .inl ?_⟩
    · simp only [event]
      split <;> rfl
    · unfold pendingGeneration
      rw [update_worker, update_sample]
  case requestTopologyRefresh =>
    subst hstep
    refine .inr ⟨rfl, .inl ?_⟩
    rcases requestTopologyRefresh_cases s with ⟨-, hrequest⟩ | ⟨requestPending, -, hrequest⟩
    · rw [hrequest]
    · rw [hrequest]
      rfl
  case destroy =>
    subst hstep
    refine .inr ⟨rfl, .inl ?_⟩
    rcases destroy_cases s with hdestroy | hdestroy
    · rw [hdestroy]
      rfl
    · rw [hdestroy]
  all_goals
    rcases worker_cases hstep with ⟨_, ha, hw, rfl⟩ | ⟨_, _, ha, hw, rfl⟩ | ⟨ha, hw, _, _, rfl⟩ |
      ⟨ha, hw, _, rfl⟩ | ⟨_, _, ha, hw, he, rfl⟩ | ⟨_, _, _, _, ha, hw, he, rfl⟩ |
      ⟨_, _, _, ha, hw, rfl⟩ | ⟨sampled, ha, hw, rfl⟩
  all_goals cases ha
  · exact .inr ⟨rfl, .inl rfl⟩
  · exact .inr ⟨rfl, .inl (by simp [pendingGeneration, hw])⟩
  · exact .inr ⟨rfl, .inl (by simp [pendingGeneration, hw])⟩
  · exact .inr ⟨rfl, .inl (by simp [pendingGeneration, hw])⟩
  · exact .inr ⟨by simp [event, hw, he, puts], .inl (by simp [pendingGeneration, hw])⟩
  · exact .inr ⟨by simp [event, hw, he, puts], .inl (by simp [pendingGeneration, hw])⟩
  · exact .inr ⟨rfl, .inl (by simp [pendingGeneration, hw, sampleOnceLeave])⟩
  · cases sampled
    · exact .inr ⟨by simp [event, hw, puts], .inl (by simp [pendingGeneration, hw])⟩
    · cases hs : s.sampler.stopRequested
      · exact .inl ⟨s.sampler.sample.snapshot, by simp [event, hw, hs, puts],
          by simp [pendingGeneration, hw, LsmMonitor.snapshot], by simp [pendingGeneration, hw]⟩
      · exact .inr ⟨by simp [event, hw, hs, puts], .inr rfl⟩

omit [DecidableEq π] in
/-- Once stop is requested nothing more fills the buffer, and it stays requested. -/
theorem step_stopped {s t : State π} {a : Action π} (hs : s.sampler.stopRequested = true)
    (hstep : step due s a = some t) : puts (event due s a) = [] ∧ t.sampler.stopRequested = true := by
  cases a <;> simp only [step, Option.some.injEq] at hstep
  case update =>
    subst hstep
    refine ⟨by simp only [event]; split <;> rfl, ?_⟩
    obtain ⟨monitor, requestPending, sampleReady, hupdate⟩ := update_frame s
    rw [hupdate]
    exact hs
  case requestTopologyRefresh =>
    subst hstep
    refine ⟨rfl, ?_⟩
    rcases requestTopologyRefresh_cases s with ⟨-, hrequest⟩ | ⟨requestPending, -, hrequest⟩ <;> rw [hrequest] <;> exact hs
  case destroy =>
    subst hstep
    refine ⟨rfl, ?_⟩
    rcases destroy_cases s with hdestroy | hdestroy <;> rw [hdestroy]
    exact hs
  all_goals
    rcases worker_cases hstep with ⟨_, ha, hw, rfl⟩ | ⟨_, _, ha, hw, rfl⟩ | ⟨ha, hw, _, _, rfl⟩ |
      ⟨ha, hw, _, rfl⟩ | ⟨_, _, ha, hw, he, rfl⟩ | ⟨_, _, _, _, ha, hw, he, rfl⟩ |
      ⟨_, _, _, ha, hw, rfl⟩ | ⟨sampled, ha, hw, rfl⟩
  all_goals cases ha
  case enter.inr.inr.inr.inr.inl => exact ⟨by simp [event, hw, he, puts], hs⟩
  case enter.inr.inr.inr.inr.inr.inl => exact ⟨by simp [event, hw, he, puts], hs⟩
  case complete => exact ⟨by cases sampled <;> simp [event, hw, hs, puts], hs⟩
  all_goals exact ⟨rfl, hs⟩

omit [DecidableEq π] in
theorem stopped_puts {s t : State π} {actions : List (Action π)} (hs : s.sampler.stopRequested = true)
    (hrun : (machine due).run s actions = some t) : puts ((machine due).trace (event due) s actions) = [] := by
  induction actions generalizing s with
  | nil => rfl
  | cons a rest ih =>
    obtain ⟨u, hu, hrest⟩ := Machine.run_cons _ hrun
    obtain ⟨hputs, hstop⟩ := step_stopped hs hu
    rw [Machine.trace_cons _ _ hu, puts_append, hputs, ih hstop hrest]
    rfl

omit [DecidableEq π] in
/-- Completed samples carry successive generations, from the pending one on. -/
theorem run_generations {s t : State π} {actions : List (Action π)}
    (hrun : (machine due).run s actions = some t) :
    Successive (pendingGeneration s)
      ((puts ((machine due).trace (event due) s actions)).map fun x => x.2.1) := by
  induction actions generalizing s with
  | nil => trivial
  | cons a rest ih =>
    obtain ⟨u, hu, hrest⟩ := Machine.run_cons _ hrun
    rw [Machine.trace_cons _ _ hu, puts_append]
    rcases step_generation hu with ⟨x, hputs, hx, hnext⟩ | ⟨hputs, hsame | hstop⟩
    · rw [hputs]
      exact ⟨hx, hnext ▸ ih hrest⟩
    · rw [hputs, List.nil_append, ← hsame]
      exact ih hrest
    · rw [hputs, stopped_puts hstop hrest]
      trivial

/-- **The hand-off.** On every schedule of updates, topology requests, stop and
worker steps: at most one flag is up; an update that would copy the shared sample
finds the worker not writing it; the samples pass through a one-place buffer, so
each completed one is published exactly once before the worker claims the buffer
again, but for the one a stop may leave in it; and consecutively published
generations are successors under the overview's gap rule. -/
theorem handoff (now : ℚ) (telemetry : π) {s : State π} {actions : List (Action π)}
    (hrun : (machine due).run (lsmMonitorPlatformInit now telemetry) actions = some s) :
    AtMostOne s.sampler ∧
    (s.copies = true → s.worker.writing = false) ∧
    (∃ slot, Slot.machine.run .empty
        ((machine due).trace (event due) (lsmMonitorPlatformInit now telemetry) actions) = some slot ∧
      puts ((machine due).trace (event due) (lsmMonitorPlatformInit now telemetry) actions) =
        takes ((machine due).trace (event due) (lsmMonitorPlatformInit now telemetry) actions) ++ slot.held) ∧
    ((takes ((machine due).trace (event due) (lsmMonitorPlatformInit now telemetry) actions)).map
      fun x => x.2.1).IsChain fun a b => b = expected a := by
  have hinv : Inv s := Machine.run_preserves (machine due) Inv (fun s a t h hstep => step_inv h hstep)
    (init_inv now telemetry) hrun
  obtain ⟨slot, hslot, _⟩ := (slotSimulation due).run_trace
    (t := .empty) ⟨init_inv now telemetry, rfl⟩ hrun
  refine ⟨hinv.atMostOne, ?_, ⟨slot, hslot, Slot.puts_eq hslot⟩, ?_⟩
  · intro hc
    simp only [State.copies, Bool.and_eq_true] at hc
    exact hinv.ready_not_writing hc.2
  · have hchain := (run_generations hrun).isChain (pendingGeneration_lt (init_inv now telemetry))
    rw [show puts _ = _ from Slot.puts_eq hslot, List.map_append] at hchain
    exact hchain.left_of_append

/-- Two samples with a refused one between them: the clock stands still at the
second request. -/
def twoSamples : List (Action Nat) :=
  [.initialised true true, .take, .enter (some 1), .collect 7, .leave true true, .complete, .update,
    .take, .enter (some 1), .complete, .requestTopologyRefresh, .take, .enter (some 2), .collect 9,
    .leave true true, .complete, .update]

theorem handoff_twoSamples :
    ∃ s, (machine fun _ _ _ => false).run (lsmMonitorPlatformInit 0 0) twoSamples = some s ∧
      AtMostOne s.sampler ∧ s.monitor.snapshot = (9, 2, 2) := by
  have hshown : ((machine fun _ _ _ => false).run (lsmMonitorPlatformInit 0 0) twoSamples).map
      (fun s => s.monitor.snapshot) = some (9, 2, 2) := by decide
  obtain ⟨s, hs, hsnap⟩ := Option.map_eq_some_iff.mp hshown
  exact ⟨s, hs, (handoff 0 0 hs).1, hsnap⟩

end SystemMonitor.Monitor
