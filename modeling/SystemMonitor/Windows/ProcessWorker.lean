import SystemMonitor.Windows.ProcessRuntime
import SystemMonitor.Lib.Doorbell

/-! What the process worker and its callers keep between them.

The handles rise and fall together, and while there are none the worker has
exited (`Inv`): a launch finds no worker, whatever was abandoned before. The
request flag and the event are a doorbell (`doorbellSimulation`). Every list a
scan produces is handed out, freed or held, once (`Ledger`). After a launch the
stop flag is down and the request up until a stop or the first scan
(`Started`). -/
namespace SystemMonitor.ProcessRuntime
open Lib

variable {π : Type}

/-! ### What a step does -/

inductive Event (π : Type) where
  | launched
  /-- A start that succeeds, with or without a launch. -/
  | started
  | stopRequested
  | creationFailed
  /-- The worker leaves its loop. -/
  | left
  | scanStarted
  | produced (x : Snapshot π)
  | freed (x : Snapshot π)
  /-- Handed to a caller, in this epoch. -/
  | took (epoch : Nat) (x : Snapshot π)

def stopEvents (s : State π) : List (Event π) :=
  if s.runtime.processLockInitialised then [.stopRequested] else []

def heldEvents (s : State π) : List (Event π) := s.runtime.processCompleted.toList.map .freed

def finishEvents (s : State π) : Option π → List (Event π)
  | none => if s.runtime.processStopRequested then [.left] else []
  | some processes =>
    let x : Snapshot π := ⟨s.worker.epoch, s.scans, processes⟩
    if s.runtime.processStopRequested then [.produced x, .freed x, .left] else .produced x :: heldEvents s

def events (s : State π) : Action π → List (Event π)
  | .start exitCodeRead =>
    if !s.runtime.processThread || s.runtime.processWorkerAbandoned then []
    else if lsmWindowsProcessRuntimeAvailable s exitCodeRead then [.started]
    else stopEvents s
  | .launch .created => [.launched, .started]
  | .take =>
    if s.runtime.processLockInitialised && s.runtime.processCompletedReady then
      s.runtime.processCompleted.toList.map (.took s.worker.epoch)
    else []
  | .stop => stopEvents s
  | .setEvent =>
    match s.caller with
    | .stopping _ => if s.runtime.processThread then [] else heldEvents s
    | _ => []
  | .join exited => if exited then heldEvents s else []
  | .create created => if created then [] else [.creationFailed]
  | .look =>
    if s.runtime.processStopRequested then [.left]
    else if s.runtime.processRequestPending then [.scanStarted]
    else []
  | .finish scanned => finishEvents s scanned
  | _ => []

theorem started_mem {s : State π} {a : Action π} (h : .started ∈ events s a) :
    a = .launch .created ∨ ∃ exitCodeRead, lsmWindowsProcessRuntimeAvailable s exitCodeRead = true := by
  cases a with
  | start exitCodeRead =>
    cases havailable : lsmWindowsProcessRuntimeAvailable s exitCodeRead with
    | true => exact Or.inr ⟨exitCodeRead, havailable⟩
    | false => simp [events, stopEvents, havailable] at h
  | launch outcome => cases outcome <;> simp [events] at h ⊢
  | setEvent => cases hc : s.caller <;> simp [events, hc, heldEvents] at h
  | finish scanned =>
    cases scanned <;> simp only [events, finishEvents, heldEvents] at h <;> split at h <;> simp at h
  | look =>
    simp only [events] at h
    split at h
    · simp at h
    · split at h <;> simp at h
  | take | stop | join _ | create _ | request _ | wake | destroy =>
    simp [events, stopEvents, heldEvents] at h

theorem launched_mem {s : State π} {a : Action π} (h : .launched ∈ events s a) : a = .launch .created := by
  cases a with
  | launch outcome => cases outcome <;> simp [events] at h ⊢
  | setEvent => cases hc : s.caller <;> simp [events, hc, heldEvents] at h
  | finish scanned =>
    cases scanned <;> simp only [events, finishEvents, heldEvents] at h <;> split at h <;> simp at h
  | look =>
    simp only [events] at h
    split at h
    · simp at h
    · split at h <;> simp at h
  | start exitCodeRead =>
    cases havailable : lsmWindowsProcessRuntimeAvailable s exitCodeRead <;>
      simp [events, stopEvents, havailable] at h
  | take | stop | join _ | create _ | request _ | wake | destroy =>
    simp [events, stopEvents, heldEvents] at h

/-! ### The handles -/

/-- What each phase of the calling thread says of the handles. -/
def Caller.Fits (processThread processStopRequested : Bool) : Caller → Prop
  | .idle => True
  | .starting => processThread = false
  | .signalling => processThread = true
  | .stopping _ | .joining _ => processThread = true ∧ processStopRequested = true

structure Inv (s : State π) : Prop where
  lock : s.runtime.processLockInitialised = s.runtime.processThread
  event : s.runtime.processEvent.isSome = s.runtime.processThread
  /-- Without a handle there is no worker, and nothing it produced. -/
  released : s.runtime.processThread = false → s.worker.phase = .exited ∧ s.runtime.processCompleted = none
  caller : s.caller.Fits s.runtime.processThread s.runtime.processStopRequested
  ready : s.runtime.processCompletedReady = s.runtime.processCompleted.isSome
  /-- A list that waits is of the worker the handle is for. -/
  completed : ∀ x ∈ s.runtime.processCompleted, x.epoch = s.worker.epoch

theorem Inv.init : Inv (init : State π) := by
  constructor <;> simp [ProcessRuntime.init, Caller.Fits]

theorem Inv.requestStop {s : State π} (h : Inv s) (hcaller : s.caller = .idle) (restart : Bool)
    (hrestart : restart = true → s.runtime.processThread = true) : Inv (lsmWindowsProcessRuntimeStop s restart) := by
  have hlock := h.lock
  unfold lsmWindowsProcessRuntimeStop
  split
  · rename_i hnone
    have hthread : s.runtime.processThread = false := by simpa [hlock] using hnone
    have hcold : restart = false := by simpa [hthread] using hrestart
    have hsame : ({s with caller := stopped restart} : State π) = s := by
      rw [hcold, stopped, if_neg Bool.false_ne_true, ← hcaller]
    rw [hsame]
    exact h
  · rename_i hsome
    have hthread : s.runtime.processThread = true := by simpa [hlock] using hsome
    exact {lock := h.lock, event := h.event, released := h.released, ready := h.ready, completed := h.completed,
           caller := ⟨hthread, rfl⟩}

theorem Inv.start {s : State π} (h : Inv s) (hcaller : s.caller = .idle) (exitCodeRead : Bool) :
    Inv (lsmWindowsProcessRuntimeStart s exitCodeRead) := by
  unfold lsmWindowsProcessRuntimeStart
  split
  · rename_i hthread
    exact {lock := h.lock, event := h.event, released := h.released, ready := h.ready, completed := h.completed,
           caller := by simpa [Caller.Fits] using hthread}
  · rename_i hthread
    split
    · exact h
    · split
      · exact h
      · exact h.requestStop hcaller true fun _ => by simpa using hthread

theorem Inv.launch {s : State π} (h : Inv s) (hcaller : s.caller = .starting) (outcome : Launch) :
    Inv (launch s outcome) := by
  have hthread : s.runtime.processThread = false := by simpa [hcaller, Caller.Fits] using h.caller
  obtain ⟨hphase, hnone⟩ := h.released hthread
  have hready := h.ready
  rw [hnone] at hready
  cases outcome <;> constructor <;> simp [ProcessRuntime.launch, Caller.Fits, hthread, hphase, hnone, hready]

theorem Inv.request {s : State π} (h : Inv s) (scanFlags : Nat) : Inv (lsmWindowsProcessRuntimeRequest s scanFlags) := by
  unfold lsmWindowsProcessRuntimeRequest
  split
  · exact h
  · rename_i hnot
    simp only [Bool.or_eq_true, Bool.not_eq_true', not_or, Bool.not_eq_false] at hnot
    cases hstop : s.runtime.processStopRequested <;>
      exact {lock := h.lock, event := h.event, released := h.released, ready := h.ready, completed := h.completed,
             caller := show s.runtime.processThread = true from hnot.1}

theorem Inv.take {s : State π} (h : Inv s) : Inv (lsmWindowsProcessRuntimeTake s) := by
  unfold lsmWindowsProcessRuntimeTake
  split
  · exact h
  · refine {lock := h.lock, event := h.event, ready := rfl, caller := h.caller, released := ?_, completed := ?_}
    · exact fun hnone => ⟨(h.released hnone).1, rfl⟩
    · intro x hx
      cases hx

theorem Inv.setEvent {s : State π} (h : Inv s) (caller : Caller)
    (hcaller : caller.Fits s.runtime.processThread s.runtime.processStopRequested) :
    Inv {s with runtime := setEvent s.runtime, caller} where
  lock := h.lock
  event := by simpa [ProcessRuntime.setEvent] using h.event
  released := h.released
  caller := hcaller
  ready := h.ready
  completed := h.completed

/-- Everything is released together, once the worker has exited. -/
theorem Inv.join {s : State π} (h : Inv s) {restart exited : Bool} (hexited : exited = true → s.worker.phase = .exited) :
    Inv (stopJoined s restart exited) := by
  unfold stopJoined
  cases exited with
  | false =>
    exact {lock := h.lock, event := h.event, released := h.released, ready := h.ready, completed := h.completed,
           caller := trivial}
  | true => cases restart <;> constructor <;> simp [release, stopped, Caller.Fits, hexited rfl]

theorem Inv.finish {s : State π} (h : Inv s) {flags : Nat} (hphase : s.worker.phase = .scanning flags)
    (scanned : Option π) : Inv (processWorkerFinish s scanned) := by
  have hthread : s.runtime.processThread = true := by
    by_contra hnone
    have hexited := (h.released (by simpa using hnone)).1
    rw [hphase] at hexited
    cases hexited
  have hreleased : s.runtime.processThread = false → False := by simp [hthread]
  unfold processWorkerFinish
  split
  · exact {lock := h.lock, event := h.event, caller := h.caller, ready := h.ready, completed := h.completed,
           released := fun hnone => (hreleased hnone).elim}
  · cases scanned with
    | none =>
      exact {lock := h.lock, event := h.event, caller := h.caller, ready := h.ready, completed := h.completed,
             released := fun hnone => (hreleased hnone).elim}
    | some processes =>
      refine {lock := h.lock, event := h.event, caller := h.caller, ready := rfl, completed := ?_,
              released := fun hnone => (hreleased hnone).elim}
      intro x hx
      cases hx
      rfl

/-- A step of the worker outside the runtime's handles and lists. -/
theorem Inv.move {s : State π} (h : Inv s) (phase : Phase) (hphase : s.worker.phase ≠ .exited)
    (r : LsmWindowsProcessRuntime π) (hlock : r.processLockInitialised = s.runtime.processLockInitialised)
    (hthread : r.processThread = s.runtime.processThread) (hevent : r.processEvent.isSome = s.runtime.processEvent.isSome)
    (hstop : r.processStopRequested = s.runtime.processStopRequested)
    (hready : r.processCompletedReady = s.runtime.processCompletedReady)
    (hcompleted : r.processCompleted = s.runtime.processCompleted) :
    Inv {s with runtime := r, worker := {s.worker with phase := phase}} where
  lock := by
    rw [hlock, hthread]
    exact h.lock
  event := by
    rw [hevent, hthread]
    exact h.event
  released := fun hnone => absurd (h.released (hthread ▸ hnone)).1 hphase
  caller := by
    rw [hthread, hstop]
    exact h.caller
  ready := by
    rw [hready, hcompleted]
    exact h.ready
  completed := fun x hx => h.completed x (hcompleted ▸ hx)

theorem Inv.step {s t : State π} {a : Action π} (h : Inv s) (hstep : machine.step s a = some t) : Inv t := by
  cases machine_step hstep with
  | start exitCodeRead hcaller => exact h.start hcaller exitCodeRead
  | launch outcome hcaller => exact h.launch hcaller outcome
  | request scanFlags hcaller => exact h.request scanFlags
  | take hcaller => exact h.take
  | stop hcaller => exact h.requestStop hcaller false fun hfalse => nomatch hfalse
  | signal hcaller => exact h.setEvent .idle trivial
  | stopSignal restart hcaller =>
    have hfits : (Caller.joining restart).Fits s.runtime.processThread s.runtime.processStopRequested := by
      simpa [hcaller, Caller.Fits] using h.caller
    rw [stopSignalled, if_pos hfits.1]
    exact h.setEvent (.joining restart) hfits
  | join restart exited hcaller hexited => exact h.join hexited
  | create created hphase => exact h.move _ (by simp [hphase]) _ rfl rfl rfl rfl rfl rfl
  | wake hphase hsignalled => exact h.move _ (by simp [hphase]) _ rfl rfl (by simp [hsignalled]) rfl rfl rfl
  | look hphase =>
    unfold processWorkerLook
    split
    · exact h.move .leaving (by simp [hphase]) s.runtime rfl rfl rfl rfl rfl rfl
    · split
      · exact h.move .waiting (by simp [hphase]) s.runtime rfl rfl rfl rfl rfl rfl
      · exact h.move _ (by simp [hphase]) _ rfl rfl rfl rfl rfl rfl
  | finish flags scanned hphase => exact h.finish hphase scanned
  | destroy hphase => exact h.move _ (by simp [hphase]) _ rfl rfl rfl rfl rfl rfl

theorem Inv.run {actions : List (Action π)} {s : State π} (hrun : machine.run ProcessRuntime.init actions = some s) : Inv s :=
  machine.run_preserves Inv (fun _ _ _ h hstep => h.step hstep) .init hrun

/-- **A launch finds no handle and no worker.** -/
theorem Inv.launched {s t : State π} {a : Action π} (h : Inv s) (hstep : machine.step s a = some t)
    (hlaunched : .launched ∈ events s a) : s.runtime.processThread = false ∧ s.worker.phase = .exited := by
  cases launched_mem hlaunched
  cases machine_step hstep with
  | launch outcome hcaller =>
    have hthread : s.runtime.processThread = false := by simpa [hcaller, Caller.Fits] using h.caller
    exact ⟨hthread, (h.released hthread).1⟩

/-! ### Waking up -/

def Phase.waiter : Phase → Waiter
  | .waiting => .asleep
  | .woken => .woken
  | .creating | .scanning _ => .busy
  | .leaving | .exited => .gone

/-- Requests on their way to `SetEvent`. -/
def Caller.ringing : Caller → Nat
  | .signalling => 1
  | _ => 0

/-- What a step does to the request and the event. -/
def rings (s : State π) : Action π → List DoorbellEvent
  | .launch .created => [.install, .raise]
  | .request _ =>
    if !s.runtime.processThread || !s.runtime.processLockInitialised then []
    else if s.runtime.processStopRequested then [.approach]
    else [.raise]
  | .setEvent => if s.caller = .signalling then [.ring] else [.approach, .ring]
  | .create created => if created then [.rest] else [.leave]
  | .wake => [.wake]
  | .look =>
    if s.runtime.processStopRequested then [.leave] else if s.runtime.processRequestPending then [.look] else [.rest]
  | .finish _ => if s.runtime.processStopRequested then [.leave] else [.rest]
  | _ => []

/-- The doorbell of a worker, while there is a handle. -/
structure Rings (s : State π) (d : Doorbell) : Prop where
  inv : Inv s
  waiter : d.waiter = s.worker.phase.waiter
  ringing : d.ringing = s.caller.ringing
  requested : s.runtime.processThread = true → d.requested = s.runtime.processRequestPending
  signalled : s.runtime.processThread = true → d.signalled = decide (s.runtime.processEvent = some true)

theorem Rings.launch {s : State π} {d : Doorbell} (h : Rings s d) (hcaller : s.caller = .starting) (outcome : Launch) :
    ∃ d', Doorbell.machine.run d (rings s (.launch outcome)) = some d' ∧ Rings (launch s outcome) d' := by
  have hthread : s.runtime.processThread = false := by simpa [hcaller, Caller.Fits] using h.inv.caller
  have hexited := (h.inv.released hthread).1
  have hwaiter : d.waiter = .gone := by simp [h.waiter, hexited, Phase.waiter]
  have hringing : d.ringing = 0 := by simp [h.ringing, hcaller, Caller.ringing]
  cases outcome with
  | created =>
    refine ⟨{d with requested := true, signalled := false, ringing := d.ringing + 1, waiter := .busy}, ?_, ?_⟩
    · simp [rings, Machine.run, Doorbell.machine, Doorbell.next, hwaiter]
    · exact {inv := h.inv.launch hcaller .created, waiter := rfl, ringing := by simp [hringing, ProcessRuntime.launch, Caller.ringing],
             requested := fun _ => rfl, signalled := fun _ => rfl}
  | noEvent | noThread =>
    refine ⟨d, rfl, ?_⟩
    exact {inv := h.inv.launch hcaller _, waiter := h.waiter, ringing := by simp [hringing, ProcessRuntime.launch, Caller.ringing],
           requested := by simp [ProcessRuntime.launch, hthread], signalled := by simp [ProcessRuntime.launch, hthread]}

theorem Rings.request {s : State π} {d : Doorbell} (h : Rings s d) (hcaller : s.caller = .idle) (scanFlags : Nat) :
    ∃ d', Doorbell.machine.run d (rings s (.request scanFlags)) = some d' ∧
      Rings (lsmWindowsProcessRuntimeRequest s scanFlags) d' := by
  have hinv := h.inv.request scanFlags
  have hringing : d.ringing = 0 := by simp [h.ringing, hcaller, Caller.ringing]
  revert hinv
  simp only [rings, lsmWindowsProcessRuntimeRequest]
  split
  · exact fun _ => ⟨d, rfl, h⟩
  · intro hinv
    split
    · refine ⟨{d with ringing := d.ringing + 1}, rfl, ?_⟩
      exact {inv := by simpa [*] using hinv, waiter := h.waiter, ringing := by simp [hringing, Caller.ringing],
             requested := h.requested, signalled := h.signalled}
    · refine ⟨{d with requested := true, ringing := d.ringing + 1}, rfl, ?_⟩
      exact {inv := by simpa [*] using hinv, waiter := h.waiter, ringing := by simp [hringing, Caller.ringing],
             requested := fun _ => rfl, signalled := h.signalled}

theorem Rings.step {s t : State π} {a : Action π} {d : Doorbell} (h : Rings s d)
    (hstep : machine.step s a = some t) :
    ∃ d', Doorbell.machine.run d (rings s a) = some d' ∧ Rings t d' := by
  have hinv := h.inv.step hstep
  have hwaiter := h.waiter
  have hringing := h.ringing
  cases machine_step hstep with
  | launch outcome hcaller => exact h.launch hcaller outcome
  | request scanFlags hcaller => exact h.request hcaller scanFlags
  | start exitCodeRead hcaller =>
    refine ⟨d, rfl, ?_⟩
    revert hinv
    unfold lsmWindowsProcessRuntimeStart lsmWindowsProcessRuntimeStop
    rw [hcaller] at hringing
    split
    · exact fun hinv => {h with inv := hinv, ringing := hringing}
    · split
      · exact fun _ => h
      · split
        · exact fun _ => h
        · split <;> exact fun hinv => {h with inv := hinv, ringing := hringing}
  | take hcaller =>
    refine ⟨d, rfl, ?_⟩
    revert hinv
    unfold lsmWindowsProcessRuntimeTake
    split
    · exact fun _ => h
    · exact fun hinv => {h with inv := hinv}
  | stop hcaller =>
    refine ⟨d, rfl, ?_⟩
    revert hinv
    unfold lsmWindowsProcessRuntimeStop
    rw [hcaller] at hringing
    split <;> exact fun hinv => {h with inv := hinv, ringing := hringing}
  | signal hcaller =>
    have hfits : s.runtime.processThread = true := by simpa [hcaller, Caller.Fits] using h.inv.caller
    have hevent := h.inv.event
    rw [hfits] at hevent
    obtain ⟨set, hset⟩ := Option.isSome_iff_exists.mp hevent
    rw [hcaller] at hringing
    refine ⟨{d with signalled := true, ringing := 0}, ?_, ?_⟩
    · simp [rings, hcaller, Machine.run, Doorbell.machine, Doorbell.next, hringing, Caller.ringing]
    · exact {inv := hinv, waiter := hwaiter, ringing := rfl, requested := h.requested,
             signalled := fun _ => by simp [setEvent, hset]}
  | stopSignal restart hcaller =>
    have hfits : s.runtime.processThread = true ∧ s.runtime.processStopRequested = true := by
      simpa [hcaller, Caller.Fits] using h.inv.caller
    have hevent := h.inv.event
    rw [hfits.1] at hevent
    obtain ⟨set, hset⟩ := Option.isSome_iff_exists.mp hevent
    rw [stopSignalled, if_pos hfits.1] at hinv ⊢
    rw [hcaller] at hringing
    refine ⟨{d with signalled := true}, ?_, ?_⟩
    · simp [rings, hcaller, Machine.run, Doorbell.machine, Doorbell.next]
    · exact {inv := hinv, waiter := hwaiter, ringing := hringing, requested := h.requested,
             signalled := fun _ => by simp [setEvent, hset]}
  | join restart exited hcaller hexited =>
    refine ⟨d, rfl, ?_⟩
    rw [hcaller] at hringing
    cases exited with
    | false => exact {h with inv := hinv, ringing := hringing}
    | true =>
      exact {inv := hinv, waiter := hwaiter, ringing := by cases restart <;> exact hringing,
             requested := fun h => absurd h Bool.false_ne_true,
             signalled := fun h => absurd h Bool.false_ne_true}
  | create created hphase =>
    rw [hphase] at hwaiter
    cases created with
    | true =>
      refine ⟨{d with waiter := .asleep}, ?_, {h with inv := hinv, waiter := rfl}⟩
      simp [rings, Machine.run, Doorbell.machine, Doorbell.next, hwaiter, Phase.waiter]
    | false => exact ⟨{d with waiter := .gone}, rfl, {h with inv := hinv, waiter := rfl}⟩
  | wake hphase hsignalled =>
    have hthread : s.runtime.processThread = true := by simpa [hsignalled] using h.inv.event.symm
    have hring : d.signalled = true := by simp [h.signalled hthread, hsignalled]
    rw [hphase] at hwaiter
    refine ⟨{d with waiter := .woken, signalled := false}, ?_, ?_⟩
    · simp [rings, Machine.run, Doorbell.machine, Doorbell.next, hwaiter, Phase.waiter, hring]
    · exact {h with inv := hinv, waiter := rfl, signalled := fun _ => rfl}
  | look hphase =>
    have hthread : s.runtime.processThread = true := by
      by_contra hnone
      simp [(h.inv.released (by simpa using hnone)).1] at hphase
    have hrequested := h.requested hthread
    rw [hphase] at hwaiter
    revert hinv
    simp only [rings, processWorkerLook]
    split
    · exact fun hinv => ⟨{d with waiter := .gone}, rfl, {h with inv := hinv, waiter := rfl}⟩
    · cases hpending : s.runtime.processRequestPending with
      | true =>
        refine fun hinv => ⟨{d with waiter := .busy, requested := false}, ?_, ?_⟩
        · simp [Machine.run, Doorbell.machine, Doorbell.next, hwaiter, Phase.waiter]
        · exact {h with inv := hinv, waiter := rfl, requested := fun _ => rfl}
      | false =>
        rw [hpending] at hrequested
        refine fun hinv => ⟨{d with waiter := .asleep}, ?_, ?_⟩
        · simp [Machine.run, Doorbell.machine, Doorbell.next, hwaiter, Phase.waiter, hrequested]
        · exact {h with inv := hinv, waiter := rfl}
  | finish flags scanned hphase =>
    rw [hphase] at hwaiter
    revert hinv
    simp only [rings, processWorkerFinish]
    split
    · exact fun hinv => ⟨{d with waiter := .gone}, rfl, {h with inv := hinv, waiter := rfl}⟩
    · refine fun hinv => ⟨{d with waiter := .asleep}, ?_, ?_⟩
      · simp [Machine.run, Doorbell.machine, Doorbell.next, hwaiter, Phase.waiter]
      · cases scanned <;> exact {h with inv := hinv, waiter := rfl}
  | destroy hphase =>
    rw [hphase] at hwaiter
    exact ⟨d, rfl, {h with inv := hinv, waiter := hwaiter}⟩

/-- The request flag and the event behave as a doorbell, one for every worker. -/
def doorbellSimulation : Simulation (machine (π := π)) rings Doorbell.machine where
  Rel := Rings
  step := fun _ _ _ _ hrel hstep => hrel.step hstep

/-- A worker never sleeps on a request that has not rung and is not about to. -/
theorem request_heard {actions : List (Action π)} {s : State π} (hrun : machine.run init actions = some s)
    (hpending : s.runtime.processRequestPending = true) (hthread : s.runtime.processThread = true)
    (hwaiting : s.worker.phase = .waiting) : s.runtime.processEvent = some true ∨ s.caller = .signalling := by
  have hstart : Rings (init : State π) ⟨false, false, 0, .gone⟩ :=
    ⟨.init, rfl, rfl, (nomatch ·), (nomatch ·)⟩
  obtain ⟨d, hd, hrel⟩ := doorbellSimulation.run_trace hstart hrun
  have hwaiter : d.waiter = .asleep := by simp [hrel.waiter, hwaiting, Phase.waiter]
  have hheard : (⟨false, false, 0, .gone⟩ : Doorbell).Heard := fun h => nomatch h
  rcases Doorbell.heard hheard hd ((hrel.requested hthread).trans hpending) (Or.inl hwaiter) with hset | hring
  · left
    simpa [hrel.signalled hthread] using hset
  · right
    rw [hrel.ringing] at hring
    cases hc : s.caller <;> simp [hc, Caller.ringing] at hring ⊢

/-! ### Every list once -/

def produced (log : List (Event π)) : List (Snapshot π) :=
  log.filterMap fun
    | .produced x => some x
    | _ => none

def freed (log : List (Event π)) : List (Snapshot π) :=
  log.filterMap fun
    | .freed x => some x
    | _ => none

def taken (log : List (Event π)) : List (Nat × Snapshot π) :=
  log.filterMap fun
    | .took epoch x => some (epoch, x)
    | _ => none

@[simp] theorem produced_append (a b : List (Event π)) : produced (a ++ b) = produced a ++ produced b :=
  List.filterMap_append

@[simp] theorem freed_append (a b : List (Event π)) : freed (a ++ b) = freed a ++ freed b := List.filterMap_append

@[simp] theorem taken_append (a b : List (Event π)) : taken (a ++ b) = taken a ++ taken b := List.filterMap_append

def held (s : State π) : List (Snapshot π) := s.runtime.processCompleted.toList

@[simp] theorem produced_held (s : State π) : produced (heldEvents s) = [] := by
  cases h : s.runtime.processCompleted <;> simp [heldEvents, h, produced]

@[simp] theorem freed_held (s : State π) : freed (heldEvents s) = held s := by
  cases h : s.runtime.processCompleted <;> simp [heldEvents, held, h, freed]

@[simp] theorem taken_held (s : State π) : taken (heldEvents s) = [] := by
  cases h : s.runtime.processCompleted <;> simp [heldEvents, h, taken]

structure Ledger (log : List (Event π)) (s : State π) : Prop where
  balance : (produced log).Perm ((taken log).map Prod.snd ++ freed log ++ held s)
  numbered : ∀ x ∈ produced log, x.scan < s.scans
  distinct : (produced log).Nodup
  epochs : ∀ p ∈ taken log, p.2.epoch = p.1

/-- A step that neither makes a list nor moves one. -/
theorem Ledger.quiet {log : List (Event π)} {s t : State π} (h : Ledger log s) {more : List (Event π)}
    (hproduced : produced more = []) (hfreed : freed more = []) (htaken : taken more = [])
    (hcompleted : t.runtime.processCompleted = s.runtime.processCompleted) (hscans : s.scans ≤ t.scans) :
    Ledger (log ++ more) t where
  balance := by simpa [hproduced, hfreed, htaken, held, hcompleted] using h.balance
  numbered := fun x hx => Nat.lt_of_lt_of_le (h.numbered x (by simpa [hproduced] using hx)) hscans
  distinct := by simpa [hproduced] using h.distinct
  epochs := by simpa [htaken] using h.epochs

/-- What is held is freed. -/
theorem Ledger.free {log : List (Event π)} {s t : State π} (h : Ledger log s)
    (hcompleted : t.runtime.processCompleted = none) (hscans : t.scans = s.scans) : Ledger (log ++ heldEvents s) t where
  balance := by simpa [held, hcompleted] using h.balance
  numbered := by simpa [hscans] using h.numbered
  distinct := by simpa using h.distinct
  epochs := by simpa using h.epochs

theorem Ledger.take {log : List (Event π)} {s t : State π} (h : Ledger log s)
    (hepoch : ∀ x ∈ s.runtime.processCompleted, x.epoch = s.worker.epoch)
    (hcompleted : t.runtime.processCompleted = none) (hscans : t.scans = s.scans) :
    Ledger (log ++ s.runtime.processCompleted.toList.map (.took s.worker.epoch)) t := by
  cases hc : s.runtime.processCompleted with
  | none => exact h.quiet rfl rfl rfl (hcompleted.trans hc.symm) (Nat.le_of_eq hscans.symm)
  | some x =>
    have hbalance := h.balance
    rw [show held s = [x] by simp [held, hc]] at hbalance
    refine ⟨?_, by simpa [produced, hscans] using h.numbered, by simpa [produced] using h.distinct, ?_⟩
    · have hmoved : ((taken log).map Prod.snd ++ freed log ++ [x]).Perm
          ((taken log).map Prod.snd ++ [x] ++ freed log) := by
        rw [List.append_assoc, List.append_assoc]
        exact List.Perm.append_left _ List.perm_append_comm
      simpa [produced, freed, taken, held, hcompleted] using hbalance.trans hmoved
    · intro p hp
      rw [taken_append, List.mem_append] at hp
      rcases hp with hp | hp
      · exact h.epochs p hp
      · have hp : p = (s.worker.epoch, x) := by simpa [taken] using hp
        rw [hp]
        exact hepoch x hc

/-- A new list takes the next number. -/
theorem Ledger.produce {log : List (Event π)} {s t : State π} (h : Ledger log s) {x : Snapshot π}
    {more : List (Event π)} (hx : x.scan = s.scans) (hproduced : produced more = [x]) (htaken : taken more = [])
    (hbalance : (held s ++ [x]).Perm (freed more ++ held t)) (hscans : t.scans = s.scans + 1) :
    Ledger (log ++ more) t where
  balance := by
    have hlog : (produced log ++ [x]).Perm ((taken log).map Prod.snd ++ freed log ++ (held s ++ [x])) := by
      simpa using h.balance.append_right [x]
    simpa [hproduced, htaken] using hlog.trans (hbalance.append_left _)
  numbered := by
    intro y hy
    rw [produced_append, hproduced, List.mem_append, List.mem_singleton] at hy
    rcases hy with hy | rfl
    · have := h.numbered y hy
      omega
    · omega
  distinct := by
    rw [produced_append, hproduced]
    refine List.nodup_append.mpr ⟨h.distinct, by simp, ?_⟩
    intro y hy z hz hyz
    have hold := h.numbered y hy
    rw [List.mem_singleton] at hz
    rw [hyz, hz] at hold
    omega
  epochs := by simpa [htaken] using h.epochs

theorem Ledger.stop {log : List (Event π)} {s : State π} (h : Ledger log s) (restart : Bool) :
    Ledger (log ++ stopEvents s) (lsmWindowsProcessRuntimeStop s restart) := by
  unfold stopEvents lsmWindowsProcessRuntimeStop
  cases s.runtime.processLockInitialised <;> exact h.quiet rfl rfl rfl rfl (Nat.le_refl _)

theorem Ledger.finish {log : List (Event π)} {s : State π} (h : Ledger log s) (scanned : Option π) :
    Ledger (log ++ finishEvents s scanned) (processWorkerFinish s scanned) := by
  unfold processWorkerFinish
  cases hstop : s.runtime.processStopRequested with
  | true =>
    cases scanned with
    | none =>
      rw [finishEvents, if_pos hstop]
      exact h.quiet rfl rfl rfl rfl (Nat.le_succ _)
    | some processes =>
      rw [finishEvents, if_pos hstop]
      exact h.produce rfl rfl rfl List.perm_append_comm rfl
  | false =>
    cases scanned with
    | none =>
      rw [finishEvents, if_neg (by simp [hstop])]
      exact h.quiet rfl rfl rfl rfl (Nat.le_succ _)
    | some processes =>
      rw [finishEvents, if_neg (by simp [hstop])]
      refine h.produce (x := ⟨s.worker.epoch, s.scans, processes⟩) rfl ?_ ?_ ?_ rfl
      · exact congrArg _ (produced_held s)
      · exact taken_held s
      · exact .of_eq (congrArg (· ++ _) (freed_held s).symm)

theorem Ledger.step {log : List (Event π)} {s t : State π} {a : Action π} (h : Ledger log s) (hinv : Inv s)
    (hstep : machine.step s a = some t) : Ledger (log ++ events s a) t := by
  cases machine_step hstep with
  | start exitCodeRead hcaller =>
    simp only [events, lsmWindowsProcessRuntimeStart]
    cases s.runtime.processThread <;> cases s.runtime.processWorkerAbandoned <;>
      cases lsmWindowsProcessRuntimeAvailable s exitCodeRead
    case true.false.false => exact h.stop true
    all_goals exact h.quiet rfl rfl rfl rfl (Nat.le_refl _)
  | launch outcome hcaller => cases outcome <;> exact h.quiet rfl rfl rfl rfl (Nat.le_refl _)
  | request scanFlags hcaller =>
    simp only [events, lsmWindowsProcessRuntimeRequest]
    split
    · exact h.quiet rfl rfl rfl rfl (Nat.le_refl _)
    · cases s.runtime.processStopRequested <;> exact h.quiet rfl rfl rfl rfl (Nat.le_refl _)
  | take hcaller =>
    simp only [events, lsmWindowsProcessRuntimeTake]
    cases s.runtime.processLockInitialised <;> cases s.runtime.processCompletedReady
    case true.true => exact h.take hinv.completed rfl rfl
    all_goals exact h.quiet rfl rfl rfl rfl (Nat.le_refl _)
  | stop hcaller => exact h.stop false
  | signal hcaller =>
    rw [show events s .setEvent = [] by simp [events, hcaller]]
    exact h.quiet rfl rfl rfl rfl (Nat.le_refl _)
  | stopSignal restart hcaller =>
    simp only [events, hcaller, stopSignalled]
    cases s.runtime.processThread with
    | true => exact h.quiet rfl rfl rfl rfl (Nat.le_refl _)
    | false => exact h.free rfl rfl
  | join restart exited hcaller hexited =>
    cases exited with
    | true => exact h.free rfl rfl
    | false => exact h.quiet rfl rfl rfl rfl (Nat.le_refl _)
  | create created hphase => cases created <;> exact h.quiet rfl rfl rfl rfl (Nat.le_refl _)
  | wake hphase hsignalled => exact h.quiet rfl rfl rfl rfl (Nat.le_refl _)
  | look hphase =>
    simp only [events, processWorkerLook]
    cases s.runtime.processStopRequested <;> cases s.runtime.processRequestPending <;>
      exact h.quiet rfl rfl rfl rfl (Nat.le_refl _)
  | finish flags scanned hphase => exact h.finish scanned
  | destroy hphase => exact h.quiet rfl rfl rfl rfl (Nat.le_refl _)

/-! ### After a launch -/

/-- The worker has yet to look at its first request. -/
def Phase.fresh : Phase → Bool
  | .creating | .waiting | .woken => true
  | _ => false

/-- Where a launched worker stands, as long as nobody has asked it to stop. -/
structure Working (since : List (Event π)) (s : State π) : Prop where
  running : s.runtime.processStopRequested = false
  thread : s.runtime.processThread = true
  stays : .left ∉ since
  begun : .scanStarted ∈ since ∨ .creationFailed ∈ since ∨
    s.runtime.processRequestPending = true ∧ s.worker.phase.fresh = true

def Started (since : List (Event π)) (s : State π) : Prop := .stopRequested ∈ since ∨ Working since s

theorem Working.keep {since : List (Event π)} {s t : State π} (h : Working since s) (more : List (Event π))
    (hstays : .left ∉ more) (hrunning : t.runtime.processStopRequested = s.runtime.processStopRequested)
    (hthread : t.runtime.processThread = s.runtime.processThread)
    (hbegun : s.runtime.processRequestPending = true → s.worker.phase.fresh = true →
      .scanStarted ∈ more ∨ .creationFailed ∈ more ∨
        t.runtime.processRequestPending = true ∧ t.worker.phase.fresh = true) : Working (since ++ more) t where
  running := hrunning.trans h.running
  thread := hthread.trans h.thread
  stays := by simp [h.stays, hstays]
  begun := by
    rcases h.begun with hscan | hfailed | ⟨hpending, hfresh⟩
    · exact Or.inl (List.mem_append_left _ hscan)
    · exact Or.inr (Or.inl (List.mem_append_left _ hfailed))
    · rcases hbegun hpending hfresh with hscan | hfailed | hfresh
      · exact Or.inl (List.mem_append_right _ hscan)
      · exact Or.inr (Or.inl (List.mem_append_right _ hfailed))
      · exact Or.inr (Or.inr hfresh)

theorem Working.step {since : List (Event π)} {s t : State π} {a : Action π} (h : Working since s) (hinv : Inv s)
    (hstep : machine.step s a = some t) : Started (since ++ events s a) t := by
  have hrunning := h.running
  have hnot : ¬s.runtime.processStopRequested = true := by simp [hrunning]
  have hthread := h.thread
  have hlock : s.runtime.processLockInitialised = true := hinv.lock.trans hthread
  have hfits := hinv.caller
  have hstops : stopEvents s = [.stopRequested] := by rw [stopEvents, if_pos hlock]
  cases machine_step hstep with
  | start exitCodeRead hcaller =>
    simp only [events, lsmWindowsProcessRuntimeStart, hthread, Bool.not_true, Bool.false_or, Bool.false_eq_true, if_false]
    split
    · exact Or.inr (h.keep _ (by simp) rfl rfl fun hp hf => Or.inr (Or.inr ⟨hp, hf⟩))
    · split
      · exact Or.inr (h.keep _ (by simp) rfl rfl fun hp hf => Or.inr (Or.inr ⟨hp, hf⟩))
      · exact Or.inl (by simp [hstops])
  | launch outcome hcaller => simp [hcaller, Caller.Fits, hthread] at hfits
  | request scanFlags hcaller =>
    rw [lsmWindowsProcessRuntimeRequest, if_neg (by simp [hthread, hlock]), if_neg (by simp [hrunning])]
    exact Or.inr (h.keep _ (by simp [events]) rfl rfl fun _ hf => Or.inr (Or.inr ⟨rfl, hf⟩))
  | take hcaller =>
    have hnone : Event.left ∉ events s .take := by
      simp only [events]
      split <;> simp
    refine Or.inr (h.keep _ hnone ?_ ?_ fun hp hf => Or.inr (Or.inr ?_)) <;> unfold lsmWindowsProcessRuntimeTake <;>
      split <;> first | rfl | exact ⟨hp, hf⟩
  | stop hcaller => exact Or.inl (by simp [events, hstops])
  | signal hcaller =>
    rw [show events s .setEvent = [] by simp [events, hcaller]]
    exact Or.inr (h.keep _ (by simp) rfl rfl fun hp hf => Or.inr (Or.inr ⟨hp, hf⟩))
  | stopSignal restart hcaller => simp [hcaller, Caller.Fits, hrunning] at hfits
  | join restart exited hcaller hexited => simp [hcaller, Caller.Fits, hrunning] at hfits
  | create created hphase =>
    cases created with
    | true => exact Or.inr (h.keep _ (by simp [events]) rfl rfl fun hp _ => Or.inr (Or.inr ⟨hp, rfl⟩))
    | false => exact Or.inr (h.keep _ (by simp [events]) rfl rfl fun _ _ => Or.inr (Or.inl (by simp [events])))
  | wake hphase hsignalled =>
    exact Or.inr (h.keep _ (by simp [events]) rfl rfl fun hp _ => Or.inr (Or.inr ⟨hp, rfl⟩))
  | look hphase =>
    simp only [events]
    rw [if_neg hnot, processWorkerLook, if_neg hnot]
    cases hpending : s.runtime.processRequestPending with
    | true => exact Or.inr (h.keep _ (by simp) rfl rfl fun _ _ => Or.inl (by simp))
    | false => exact Or.inr (h.keep _ (by simp) rfl rfl fun hp _ => by simp [hpending] at hp)
  | finish flags scanned hphase =>
    have hbusy : s.worker.phase.fresh = false := by simp [hphase, Phase.fresh]
    have hnone : Event.left ∉ events s (.finish scanned) := by
      cases scanned <;> simp [events, finishEvents, hrunning, heldEvents]
    rw [processWorkerFinish, if_neg hnot]
    cases scanned <;> exact Or.inr (h.keep _ hnone rfl rfl fun _ hf => by simp [hbusy] at hf)
  | destroy hphase =>
    have hgone : s.worker.phase.fresh = false := by simp [hphase, Phase.fresh]
    exact Or.inr (h.keep _ (by simp [events]) rfl rfl fun _ hf => by simp [hgone] at hf)

theorem Started.step {since : List (Event π)} {s t : State π} {a : Action π} (h : Started since s) (hinv : Inv s)
    (hstep : machine.step s a = some t) : Started (since ++ events s a) t := by
  rcases h with hstopped | hworking
  · exact Or.inl (List.mem_append_left _ hstopped)
  · exact hworking.step hinv hstep

theorem Working.launched {s t : State π} {a : Action π} (hstep : machine.step s a = some t)
    (hlaunched : .launched ∈ events s a) : Working [] t := by
  cases launched_mem hlaunched
  cases machine_step hstep with
  | launch outcome hcaller => exact ⟨rfl, rfl, by simp, Or.inr (Or.inr ⟨rfl, rfl⟩)⟩

/-- A start that succeeds without a launch has found a worker that is not to stop. -/
theorem started_available {s : State π} {a : Action π} (hstarted : .started ∈ events s a) :
    .launched ∈ events s a ∨ s.runtime.processStopRequested = false ∧ s.worker.phase ≠ .exited := by
  rcases started_mem hstarted with rfl | ⟨exitCodeRead, havailable⟩
  · exact Or.inl (by simp [events])
  · right
    simp only [lsmWindowsProcessRuntimeAvailable, Bool.and_eq_true, Bool.not_eq_true', decide_eq_true_eq] at havailable
    exact ⟨havailable.1.1.1, havailable.2.2⟩

theorem working_since {before after : List (Action π)} {a : Action π} {s₀ s₁ s : State π}
    (hbefore : machine.run init before = some s₀) (hstep : machine.step s₀ a = some s₁)
    (hlaunched : .launched ∈ events s₀ a) (hafter : machine.run s₁ after = some s)
    (hnostop : .stopRequested ∉ machine.trace events s₁ after) : Working (machine.trace events s₁ after) s := by
  have hinv := Inv.run hbefore
  have hend := machine.run_trace_invariant events (fun _ _ => True) (fun since s => Started since s ∧ Inv s)
    (fun _ _ _ _ h _ hstep => ⟨h.1.step h.2 hstep, h.2.step hstep⟩)
    ⟨Or.inr (.launched hstep hlaunched), hinv.step hstep⟩ (machine.admissible_true s₁ after) hafter
  rw [List.nil_append] at hend
  exact hend.1.resolve_left hnostop

/-! ### The protocol -/

/-- **The process worker protocol.** On every schedule of the four calls and the
worker: nobody sleeps on a request that has not rung; every list a scan produces
is handed out once, in the worker's own epoch, or freed, or still held; a worker
launched by any start scans before it leaves, unless its backend fails or a stop
comes; a start that succeeds launches, but where a worker lives that is not to
stop; and a launch finds no handle held and no worker left. -/
theorem process_worker_protocol {actions : List (Action π)} {s : State π} (hrun : machine.run init actions = some s) :
    (s.runtime.processRequestPending = true → s.worker.phase = .waiting →
      s.runtime.processEvent = some true ∨ s.caller = .signalling) ∧
    ((taken (machine.trace events init actions)).map Prod.snd).Nodup ∧
    (∀ p ∈ taken (machine.trace events init actions),
      p.2.epoch = p.1 ∧ p.2 ∈ produced (machine.trace events init actions)) ∧
    (∀ (before after : List (Action π)) (a : Action π) (s₀ s₁ : State π), actions = before ++ a :: after →
      machine.run init before = some s₀ → machine.step s₀ a = some s₁ → .launched ∈ events s₀ a →
      .stopRequested ∉ machine.trace events s₁ after →
      s.runtime.processStopRequested = false ∧ .left ∉ machine.trace events s₁ after ∧
        (.scanStarted ∈ machine.trace events s₁ after ∨ .creationFailed ∈ machine.trace events s₁ after ∨
          s.runtime.processRequestPending = true ∧ s.worker.phase.fresh = true)) ∧
    (∀ (a : Action π) (t : State π), machine.step s a = some t → .started ∈ events s a →
      .launched ∈ events s a ∨ s.runtime.processStopRequested = false ∧ s.worker.phase ≠ .exited) ∧
    (∀ (a : Action π) (t : State π), machine.step s a = some t → .launched ∈ events s a →
      s.runtime.processThread = false ∧ s.worker.phase = .exited) := by
  have hinv := Inv.run hrun
  have hledger : Ledger (machine.trace events init actions) s := by
    have hstart : Ledger [] (init : State π) ∧ Inv (init : State π) :=
      ⟨⟨.refl _, by simp [produced], by simp [produced], by simp [taken]⟩, .init⟩
    exact (machine.run_trace_invariant events (fun _ _ => True) (fun log s => Ledger log s ∧ Inv s)
      (fun _ _ _ _ h _ hstep => ⟨h.1.step h.2 hstep, h.2.step hstep⟩) hstart (machine.admissible_true _ _) hrun).1
  refine ⟨?_, ?_, ?_, ?_, fun a t _ => started_available, fun a t hstep => hinv.launched hstep⟩
  · intro hpending hwaiting
    have hthread : s.runtime.processThread = true := by
      by_contra hnone
      simp [(hinv.released (by simpa using hnone)).1] at hwaiting
    exact request_heard hrun hpending hthread hwaiting
  · have hall := hledger.balance.nodup_iff.mp hledger.distinct
    exact (List.nodup_append.mp (List.nodup_append.mp hall).1).1
  · intro p hp
    refine ⟨hledger.epochs p hp, hledger.balance.mem_iff.mpr ?_⟩
    exact List.mem_append_left _ (List.mem_append_left _ (List.mem_map_of_mem hp))
  · intro before after a s₀ s₁ hsplit hbefore hstep hlaunched hnostop
    have hafter : machine.run s₁ after = some s := by
      rw [hsplit, Machine.run_append, hbefore, Option.bind_some, Machine.run, hstep, Option.bind_some] at hrun
      exact hrun
    have hworking := working_since hbefore hstep hlaunched hafter hnostop
    exact ⟨hworking.running, hworking.stays, hworking.begun⟩

/-- A scan taken, a stop, and a second worker that waits for its first request. -/
def restarted : List (Action Nat) :=
  [.start true, .launch .created, .create true, .setEvent, .wake, .look, .finish (some 7), .take,
    .stop, .setEvent, .wake, .look, .destroy, .join true, .start true, .launch .created, .create true]

theorem process_worker_protocol_restarted :
    ∃ s, machine.run init restarted = some s ∧ s.worker.phase = .waiting ∧ s.runtime.processRequestPending = true ∧
      taken (machine.trace events init restarted) = [(1, ⟨1, 0, 7⟩)] ∧
      (s.runtime.processEvent = some true ∨ s.caller = .signalling) := by
  obtain ⟨s, hrun, hwaiting, hpending⟩ := machine.run_decided
    (p := fun s : State Nat => s.worker.phase = .waiting ∧ s.runtime.processRequestPending = true)
    (show (machine.run init restarted).map _ = some true by decide)
  have htaken : taken (machine.trace events init restarted) = [(1, ⟨1, 0, 7⟩)] := by decide
  exact ⟨s, hrun, hwaiting, hpending, htaken, (process_worker_protocol hrun).1 hpending hwaiting⟩

end SystemMonitor.ProcessRuntime
