import SystemMonitor.Scanner.Model

/-! Who owns the scanner.

References are retained under the mutex, in two functions, and released by the
application, by the worker and by each idle source's destroy notify. They always
count the holders that are still there (`ownership`), so the scanner is freed
once, by the last of them, and nothing can touch it afterwards. -/
namespace SystemMonitor.Scanner
open Lib

variable {ρ γ : Type}

def Application.holds (application : Application) : Nat := if application = .released then 0 else 1

def Worker.holds (worker : Worker) : Nat := if worker = .exited then 0 else 1

/-- A dispatch that the worker has retained and not yet queued. -/
def Worker.queues (worker : Worker) : Nat := if worker = .queueing then 1 else 0

def Dispatch.alive : Dispatch γ → Bool
  | .destroyed => false
  | _ => true

/-- The application until it has released, the worker until it has exited, and
the dispatches from their retain to their destroy notify. -/
def holders (s : State ρ γ) : Nat :=
  s.application.holds + s.worker.holds + s.callers + s.worker.queues + s.dispatches.countP Dispatch.alive

/-- A release that finds the last reference. -/
def frees (s : State ρ γ) : Action ρ γ → List Unit
  | .applicationReleases | .workerReleases | .destroySource _ | .discardSource _ =>
    if s.scanner.references = 1 then [()] else []
  | _ => []

/-! ### What each step does to the count -/

@[simp] theorem Worker.holds_signal (worker : Worker) : worker.signal.holds = worker.holds := by
  cases worker <;> rfl

@[simp] theorem Worker.queues_signal (worker : Worker) : worker.signal.queues = worker.queues := by
  cases worker <;> rfl

/-- A change of one dispatch. -/
theorem countP_set_dispatch (p : Dispatch γ → Bool) {dispatches : List (Dispatch γ)} {i : Nat} {d : Dispatch γ}
    (hd : dispatches[i]? = some d) (e : Dispatch γ) :
    (dispatches.set i e).countP p + (p d).toNat = dispatches.countP p + (p e).toNat := by
  induction dispatches generalizing i with
  | nil => simp at hd
  | cons x rest ih =>
    cases i with
    | zero =>
      simp only [List.getElem?_cons_zero, Option.some.injEq] at hd
      subst hd
      simp only [List.set_cons_zero, List.countP_cons]
      cases p x <;> cases p e <;> simp
    | succ i =>
      simp only [List.getElem?_cons_succ] at hd
      have hrest := ih hd
      simp only [List.set_cons_succ, List.countP_cons]
      omega

/-- A step retains what it queues and frees when it takes the last reference. -/
structure Counted (s : State ρ γ) : Prop where
  references : s.scanner.references = holders s
  freed : s.freed = true ↔ holders s = 0

theorem Counted.create : Counted (lsmProcessScannerCreate : State ρ γ) where
  references := rfl
  freed := by simp [lsmProcessScannerCreate, holders, Application.holds, Worker.holds]

/-- A step after which there are as many holders, and as many references. -/
theorem Counted.keep {s t : State ρ γ} (h : Counted s) (hreferences : t.scanner.references = s.scanner.references)
    (hholders : holders t = holders s) (hfreed : t.freed = s.freed) : Counted t :=
  ⟨by rw [hreferences, hholders, h.references], by rw [hfreed, hholders, h.freed]⟩

/-- A step that retains for one more holder. -/
theorem Counted.retain {s t : State ρ γ} (h : Counted s)
    (hreferences : t.scanner.references = s.scanner.references + 1) (hholders : holders t = holders s + 1)
    (hfreed : t.freed = s.freed) (hthere : 0 < holders s) : Counted t := by
  refine ⟨by rw [hreferences, hholders, h.references], ?_⟩
  rw [hfreed, h.freed]
  omega

/-- A holder that lets go. -/
theorem Counted.release {s t : State ρ γ} (h : Counted s) (hscanner : t.scanner = s.scanner)
    (hfreed : t.freed = s.freed) (hholders : holders t + 1 = holders s) : Counted (scannerRelease t) := by
  have hreferences : t.scanner.references = holders t + 1 := by
    rw [hscanner, h.references, hholders]
  refine ⟨?_, ?_⟩
  · show t.scanner.references - 1 = holders t
    omega
  · show (t.freed || t.scanner.references == 1) = true ↔ holders t = 0
    have hlive : t.freed = false := by
      rw [hfreed, ← Bool.not_eq_true, h.freed]
      omega
    rw [hlive, Bool.false_or, beq_iff_eq]
    omega

/-- Whoever takes a step is one of the holders. -/
theorem holders_pos {s t : State ρ γ} {a : Action ρ γ} (h : Happens s a t) : 0 < holders s := by
  have hsource : ∀ {i : Nat} {d : Dispatch γ}, s.dispatches[i]? = some d → d.alive = true →
      0 < s.dispatches.countP Dispatch.alive := fun hd halive =>
    List.countP_pos_iff.mpr ⟨_, List.mem_of_getElem? hd, halive⟩
  unfold holders
  cases h with
  | setReadyCallback callback huser => simp [huser, Application.holds]
  | callerQueues hcaller => omega
  | request scanFlags huser => simp [huser, Application.holds]
  | take huser => simp [huser, Application.holds]
  | destroy huser => simp [huser, Application.holds]
  | applicationReleases hdestroying => simp [hdestroying, Application.holds]
  | next hworker =>
    rcases hworker with hworker | ⟨woken, hworker⟩
    · simp [hworker, Worker.holds]
    · simp [hworker, Worker.holds]
  | finish processes flags hworker => simp [hworker, Worker.holds]
  | workerQueues hworker => simp [hworker, Worker.holds]
  | workerReleases hworker => simp [hworker, Worker.holds]
  | dispatch i hd =>
    have := hsource hd rfl
    omega
  | callback i callback hd =>
    have := hsource hd rfl
    omega
  | destroySource i hd =>
    have := hsource hd rfl
    omega
  | discardSource i hd =>
    have := hsource hd rfl
    omega

theorem Counted.setReadyCallback {s : State ρ γ} (h : Counted s) (hthere : 0 < holders s) (callback : Option γ) :
    Counted (lsmProcessScannerSetReadyCallback s callback) := by
  rcases lsmProcessScannerSetReadyCallback_cases s callback with ⟨-, hset⟩ | ⟨-, hset⟩ | ⟨-, hset⟩
  · rw [hset]
    exact h
  · rw [hset]
    refine h.retain rfl ?_ rfl hthere
    simp only [holders]
    omega
  · rw [hset]
    exact h.keep rfl rfl rfl

theorem Counted.request {s : State ρ γ} (h : Counted s) (scanFlags : UInt32) :
    Counted (lsmProcessScannerRequest s scanFlags).1 := by
  obtain ⟨requestedFlags, requestPending, worker, hworker, hrequest⟩ := lsmProcessScannerRequest_frame s scanFlags
  rw [hrequest]
  rcases hworker with rfl | rfl
  · exact h.keep rfl rfl rfl
  · refine h.keep rfl ?_ rfl
    simp [holders]

theorem Counted.take {s : State ρ γ} (h : Counted s) : Counted (lsmProcessScannerTake s).1 := by
  unfold lsmProcessScannerTake
  split
  · exact h.keep rfl rfl rfl
  · exact h

theorem Counted.next {s : State ρ γ} (h : Counted s)
    (hworker : s.worker = .looping ∨ ∃ woken, s.worker = .blocked woken) : Counted (scannerThreadNext s) := by
  obtain ⟨activeFlags, requestPending, scanInProgress, worker, ⟨hexited, hqueueing⟩, hnext⟩ := scannerThreadNext_frame s
  rw [hnext]
  refine h.keep rfl ?_ rfl
  rcases hworker with hworker | ⟨woken, hworker⟩
  · simp [holders, hworker, Worker.holds, Worker.queues, hexited, hqueueing]
  · simp [holders, hworker, Worker.holds, Worker.queues, hexited, hqueueing]

theorem Counted.finish {s : State ρ γ} (h : Counted s) (hthere : 0 < holders s) {flags : UInt32}
    (hworker : s.worker = .scanning flags) (processes : Option (List ρ)) :
    Counted (scannerThreadFinish s processes) := by
  have hholders : holders s = s.application.holds + 1 + s.callers + 0 + s.dispatches.countP Dispatch.alive := by
    simp [holders, hworker, Worker.holds, Worker.queues]
  rcases scannerThreadFinish_cases s processes with ⟨-, worker, hon, hfinish⟩ | ⟨listed, -, -, hfinish⟩
  · rw [hfinish]
    refine h.keep rfl ?_ rfl
    rcases hon with rfl | rfl
    · simp [holders, hworker, Worker.holds, Worker.queues]
    · simp [holders, hworker, Worker.holds, Worker.queues]
  · rw [hfinish]
    obtain ⟨references, readyDispatchPending, worker, hpromise, hpublish⟩ := publish_frame s listed
    rw [hpublish]
    rcases hpromise with ⟨rfl, rfl, -, -⟩ | ⟨rfl, rfl, -, -⟩
    · refine h.retain rfl ?_ rfl hthere
      rw [hholders]
      simp only [holders, Worker.holds, Worker.queues]
      simp
      omega
    · exact h.keep rfl (by simp [holders, hworker, Worker.holds, Worker.queues]) rfl

/-- A dispatch moves on without letting go. -/
theorem Counted.move {s t : State ρ γ} (h : Counted s) {i : Nat} {d e : Dispatch γ} (hd : s.dispatches[i]? = some d)
    (hdispatches : t.dispatches = s.dispatches.set i e) (halive : d.alive = e.alive)
    (hreferences : t.scanner.references = s.scanner.references) (happlication : t.application = s.application)
    (hworker : t.worker = s.worker) (hcallers : t.callers = s.callers) (hfreed : t.freed = s.freed) : Counted t := by
  refine h.keep hreferences ?_ hfreed
  have hcount := countP_set_dispatch Dispatch.alive hd e
  rw [halive] at hcount
  simp only [holders, hdispatches, happlication, hworker, hcallers]
  omega

theorem Counted.destroySource {s : State ρ γ} (h : Counted s) {i : Nat} {d : Dispatch γ}
    (hd : s.dispatches[i]? = some d) (halive : d.alive = true) : Counted (scannerReadyDispatchDestroy s i) := by
  have hcount := countP_set_dispatch Dispatch.alive hd .destroyed
  rw [halive] at hcount
  apply h.release (t := {s with dispatches := s.dispatches.set i .destroyed}) rfl rfl
  simp only [holders]
  simp only [Dispatch.alive, Bool.toNat_true, Bool.toNat_false] at hcount
  omega

/-- A queued dispatch takes over from whoever retained it. -/
theorem Counted.queue {s t : State ρ γ} (h : Counted s) (hscanner : t.scanner = s.scanner) (hfreed : t.freed = s.freed)
    (hholders : holders t + 1 = holders s) : Counted (scannerQueueReadyDispatch t) := by
  refine h.keep (congrArg LsmProcessScanner.references hscanner) ?_ hfreed
  simp only [holders, scannerQueueReadyDispatch, List.countP_append, List.countP_singleton] at hholders ⊢
  simp only [Dispatch.alive, if_true]
  omega

theorem Counted.step {s t : State ρ γ} {a : Action ρ γ} (h : Counted s) (hstep : machine.step s a = some t) :
    Counted t := by
  have hthere := holders_pos (machine_step hstep)
  cases machine_step hstep with
  | setReadyCallback callback huser => exact h.setReadyCallback hthere callback
  | callerQueues hcaller =>
    apply h.queue (t := {s with callers := s.callers - 1}) rfl rfl
    simp only [holders]
    omega
  | request scanFlags huser => exact h.request scanFlags
  | take huser => exact h.take
  | destroy huser => exact h.keep rfl (by simp [holders, lsmProcessScannerDestroy, huser, Application.holds]) rfl
  | applicationReleases hdestroying =>
    apply h.release (t := {s with application := .released}) rfl rfl
    simp only [holders, hdestroying, Application.holds]
    simp
    omega
  | next hworker => exact h.next hworker
  | finish processes flags hworker => exact h.finish hthere hworker processes
  | workerQueues hworker =>
    apply h.queue (t := {s with worker := .looping}) rfl rfl
    simp only [holders, hworker, Worker.holds, Worker.queues]
    simp
    omega
  | workerReleases hworker =>
    apply h.release (t := {s with worker := .exited}) rfl rfl
    simp only [holders, hworker, Worker.holds, Worker.queues]
    simp
    omega
  | dispatch i hd => exact h.move hd rfl rfl rfl rfl rfl rfl rfl
  | callback i callback hd => exact h.move hd rfl rfl rfl rfl rfl rfl rfl
  | destroySource i hd => exact h.destroySource hd rfl
  | discardSource i hd => exact h.destroySource hd rfl

/-! ### Whole runs -/

theorem frees_release {s t : State ρ γ} (h : Counted s) (hthere : 0 < holders s) (hscanner : t.scanner = s.scanner)
    (hfreed : t.freed = s.freed) :
    (if s.scanner.references = 1 then [()] else []).length = (scannerRelease t).freed.toNat := by
  have hlive : t.freed = false := by
    rw [hfreed, ← Bool.not_eq_true, h.freed]
    omega
  show _ = (t.freed || t.scanner.references == 1).toNat
  rw [hlive, hscanner, Bool.false_or]
  split
  · rename_i hone
    simp [hone]
  · rename_i hmore
    rw [beq_eq_false_iff_ne.mpr hmore]
    rfl

/-! Everything but a release leaves the memory where it is. -/

theorem lsmProcessScannerSetReadyCallback_freed (s : State ρ γ) (callback : Option γ) :
    (lsmProcessScannerSetReadyCallback s callback).freed = s.freed := by
  rcases lsmProcessScannerSetReadyCallback_cases s callback with ⟨-, hset⟩ | ⟨-, hset⟩ | ⟨-, hset⟩ <;> rw [hset]

theorem lsmProcessScannerRequest_freed (s : State ρ γ) (scanFlags : UInt32) :
    (lsmProcessScannerRequest s scanFlags).1.freed = s.freed := by
  obtain ⟨requestedFlags, requestPending, worker, -, hrequest⟩ := lsmProcessScannerRequest_frame s scanFlags
  rw [hrequest]

theorem lsmProcessScannerTake_freed (s : State ρ γ) : (lsmProcessScannerTake s).1.freed = s.freed := by
  unfold lsmProcessScannerTake
  split <;> rfl

theorem scannerThreadNext_freed (s : State ρ γ) : (scannerThreadNext s).freed = s.freed := by
  obtain ⟨activeFlags, requestPending, scanInProgress, worker, -, hnext⟩ := scannerThreadNext_frame s
  rw [hnext]

theorem scannerThreadFinish_freed (s : State ρ γ) (processes : Option (List ρ)) :
    (scannerThreadFinish s processes).freed = s.freed := by
  rcases scannerThreadFinish_cases s processes with ⟨-, worker, -, hfinish⟩ | ⟨listed, -, -, hfinish⟩
  · rw [hfinish]
  · obtain ⟨references, readyDispatchPending, worker, -, hpublish⟩ := publish_frame s listed
    rw [hfinish, hpublish]

/-- How often a step frees the scanner. -/
theorem length_frees {s t : State ρ γ} {a : Action ρ γ} (h : Counted s) (hstep : machine.step s a = some t) :
    s.freed.toNat + (frees s a).length = t.freed.toNat := by
  have hthere := holders_pos (machine_step hstep)
  have hlive : s.freed = false := by
    rw [← Bool.not_eq_true, h.freed]
    omega
  have hkept : frees s a = [] → t.freed = s.freed → (frees s a).length = t.freed.toNat := by
    intro hnone hsame
    rw [hnone, hsame, hlive]
    rfl
  rw [hlive, Bool.toNat_false, Nat.zero_add]
  cases machine_step hstep with
  | applicationReleases hdestroying =>
    exact frees_release (t := {s with application := .released}) h hthere rfl rfl
  | workerReleases hworker => exact frees_release (t := {s with worker := .exited}) h hthere rfl rfl
  | destroySource i hd =>
    exact frees_release (t := {s with dispatches := s.dispatches.set i .destroyed}) h hthere rfl rfl
  | discardSource i hd =>
    exact frees_release (t := {s with dispatches := s.dispatches.set i .destroyed}) h hthere rfl rfl
  | setReadyCallback callback huser => exact hkept rfl (lsmProcessScannerSetReadyCallback_freed s callback)
  | request scanFlags huser => exact hkept rfl (lsmProcessScannerRequest_freed s scanFlags)
  | take huser => exact hkept rfl (lsmProcessScannerTake_freed s)
  | next hworker => exact hkept rfl (scannerThreadNext_freed s)
  | finish processes flags hworker => exact hkept rfl (scannerThreadFinish_freed s processes)
  | callerQueues hcaller => exact hkept rfl rfl
  | destroy huser => exact hkept rfl rfl
  | workerQueues hworker => exact hkept rfl rfl
  | dispatch i hd => exact hkept rfl rfl
  | callback i callback hd => exact hkept rfl rfl

/-- **The references count the holders.** In every state that a schedule of the
worker, the application and the main loop reaches: there are as many references
as holders, the count has come to zero once if no holder is left and not at all
otherwise, and with no holder left nothing more can happen. -/
theorem ownership {actions : List (Action ρ γ)} {s : State ρ γ}
    (hrun : machine.run lsmProcessScannerCreate actions = some s) :
    s.scanner.references = holders s ∧
    (machine.trace frees lsmProcessScannerCreate actions).length = (if holders s = 0 then 1 else 0) ∧
    (holders s = 0 → ∀ a, machine.step s a = none) := by
  have hend : Counted s ∧ (machine.trace frees lsmProcessScannerCreate actions).length = s.freed.toNat := by
    have hstart : Counted (lsmProcessScannerCreate : State ρ γ) ∧
        ([] : List Unit).length = (lsmProcessScannerCreate : State ρ γ).freed.toNat := ⟨Counted.create, rfl⟩
    refine machine.run_trace_invariant frees (fun _ _ => True)
      (fun log s => Counted s ∧ log.length = s.freed.toNat) ?_ hstart (machine.admissible_true _ actions) hrun
    intro log s a t ⟨hcounted, hlength⟩ _ hstep
    refine ⟨hcounted.step hstep, ?_⟩
    rw [List.length_append, hlength, length_frees hcounted hstep]
  obtain ⟨hcounted, hlength⟩ := hend
  refine ⟨hcounted.references, ?_, ?_⟩
  · rw [hlength]
    by_cases hnone : holders s = 0
    · rw [if_pos hnone, hcounted.freed.mpr hnone]
      rfl
    · have hlive : s.freed = false := by
        rw [← Bool.not_eq_true, hcounted.freed]
        exact hnone
      rw [if_neg hnone, hlive]
      rfl
  · intro hnone a
    cases hstep : machine.step s a with
    | none => rfl
    | some t =>
      have hthere := holders_pos (machine_step hstep)
      omega

/-- A result is dispatched while the application and the worker let go. -/
def wholeLife : List (Action Nat Nat) :=
  [.setReadyCallback (some 1), .next, .finish (some [7]), .workerQueues, .dispatch 0, .destroy, .next, .workerReleases,
    .applicationReleases, .callback 0, .destroySource 0]

theorem ownership_wholeLife :
    ∃ s, machine.run lsmProcessScannerCreate wholeLife = some s ∧ holders s = 0 ∧
      (machine.trace frees lsmProcessScannerCreate wholeLife).length = 1 ∧ ∀ a, machine.step s a = none := by
  obtain ⟨s, hrun, hnone⟩ := machine.run_decided (p := fun s => holders s = 0)
    (show (machine.run lsmProcessScannerCreate wholeLife).map (fun s => decide (holders s = 0)) = some true by
      decide)
  obtain ⟨-, hfrees, hover⟩ := ownership hrun
  rw [if_pos hnone] at hfrees
  exact ⟨s, hrun, hnone, hfrees, hover hnone⟩

end SystemMonitor.Scanner
