import Mathlib.Data.List.Nodup
import SystemMonitor.Scanner.Lifetime

/-! The main loop is told of every result.

The pending flag stands for one dispatch that has been promised and has not run:
about to be queued by the worker or by a caller of `set_ready_callback`, or
queued (`Outstanding`). A result that is ready with a callback registered is
therefore about to be announced or has been (`Told`); each list is handed over
at most once (`Handed`); and a dispatch that begins after the stop has nothing
to call (`Calls`). `delivery` puts them together. -/
namespace SystemMonitor.Scanner
open Lib

variable {ρ γ : Type}

/-- What an observer sees. `began`: a dispatch has read this callback. -/
inductive Event (γ : Type) where
  | published (scan : Nat)
  | taken (scan : Nat)
  | began (i : Nat) (callback : Option γ)
  | called (i : Nat) (callback : γ)
  | stopped
  deriving DecidableEq

def events (s : State ρ γ) : Action ρ γ → List (Event γ)
  | .finish (some _) => if s.scanner.stopRequested then [] else [.published s.scans]
  | .take =>
    match (lsmProcessScannerTake s).2 with
    | some (some listing, _) => [.taken listing.scan]
    | _ => []
  | .dispatch i => [.began i (if s.scanner.stopRequested then none else s.scanner.readyCallback)]
  | .callback i =>
    match s.dispatches[i]? with
    | some (.entered (some callback)) => [.called i callback]
    | _ => []
  | .destroy => [.stopped]
  | _ => []

/-! ### One dispatch at a time -/

/-- The dispatches promised and not yet run. -/
def outstanding (s : State ρ γ) : Nat := s.callers + s.worker.queues + s.dispatches.countP Dispatch.isQueued

def Outstanding (s : State ρ γ) : Prop := outstanding s = s.scanner.readyDispatchPending.toNat

theorem Outstanding.keep {s t : State ρ γ} (h : Outstanding s) (hsame : outstanding t = outstanding s)
    (hpending : t.scanner.readyDispatchPending = s.scanner.readyDispatchPending) : Outstanding t := by
  unfold Outstanding
  rw [hsame, hpending, h]

/-- A promise is made only when none is outstanding. -/
theorem Outstanding.promise {s t : State ρ γ} (h : Outstanding s) (hnone : s.scanner.readyDispatchPending = false)
    (hmore : outstanding t = outstanding s + 1) (hpending : t.scanner.readyDispatchPending = true) :
    Outstanding t := by
  unfold Outstanding at h ⊢
  rw [hmore, h, hnone, hpending]
  rfl

theorem Outstanding.finish {s : State ρ γ} (h : Outstanding s) {flags : UInt32} (hworker : s.worker = .scanning flags)
    (processes : Option (List ρ)) : Outstanding (scannerThreadFinish s processes) := by
  have hcount : outstanding s = s.callers + 0 + s.dispatches.countP Dispatch.isQueued := by
    simp [outstanding, hworker, Worker.queues]
  rcases scannerThreadFinish_cases s processes with ⟨-, worker, hon, hfinish⟩ | ⟨listed, -, -, hfinish⟩
  · rw [hfinish]
    refine h.keep ?_ rfl
    rcases hon with rfl | rfl
    · simp [outstanding, hworker, Worker.queues]
    · simp [outstanding, hworker, Worker.queues]
  · obtain ⟨references, readyDispatchPending, worker, hpromise, hpublish⟩ := publish_frame s listed
    rw [hfinish, hpublish]
    rcases hpromise with ⟨rfl, -, hnone, rfl⟩ | ⟨rfl, -, rfl, -⟩
    · refine h.promise hnone ?_ rfl
      rw [hcount]
      simp only [outstanding, Worker.queues, if_true]
      omega
    · exact h.keep (by simp [outstanding, hworker, Worker.queues]) rfl

/-- A dispatch that does not run changes phase. -/
theorem Outstanding.move {s t : State ρ γ} (h : Outstanding s) {i : Nat} {d e : Dispatch γ}
    (hd : s.dispatches[i]? = some d) (hdispatches : t.dispatches = s.dispatches.set i e)
    (hqueued : d.isQueued = e.isQueued) (hcallers : t.callers = s.callers) (hworker : t.worker = s.worker)
    (hpending : t.scanner.readyDispatchPending = s.scanner.readyDispatchPending) : Outstanding t := by
  refine h.keep ?_ hpending
  have hcount := countP_set_dispatch Dispatch.isQueued hd e
  rw [hqueued] at hcount
  simp only [outstanding, hdispatches, hcallers, hworker]
  omega

theorem Outstanding.dispatch {s : State ρ γ} (h : Outstanding s) {i : Nat} (hd : s.dispatches[i]? = some .queued) :
    s.scanner.readyDispatchPending = true ∧ Outstanding (scannerReadyDispatch s i) := by
  have hcount := countP_set_dispatch Dispatch.isQueued hd
    (.entered (if s.scanner.stopRequested then none else s.scanner.readyCallback))
  simp only [Dispatch.isQueued, Bool.toNat_true, Bool.toNat_false] at hcount
  unfold Outstanding outstanding at h
  have hpending : s.scanner.readyDispatchPending = true := by
    cases hp : s.scanner.readyDispatchPending with
    | true => rfl
    | false =>
      rw [hp, Bool.toNat_false] at h
      omega
  refine ⟨hpending, ?_⟩
  rw [hpending, Bool.toNat_true] at h
  show s.callers + s.worker.queues + _ = 0
  simp only [scannerReadyDispatch]
  omega

theorem Outstanding.step {s t : State ρ γ} {a : Action ρ γ} (h : Outstanding s)
    (hran : ∀ i, a ≠ .discardSource i) (hstep : machine.step s a = some t) : Outstanding t := by
  cases machine_step hstep with
  | setReadyCallback callback huser =>
    rcases lsmProcessScannerSetReadyCallback_cases s callback with ⟨-, hset⟩ | ⟨hnone, hset⟩ | ⟨-, hset⟩
    · rw [hset]
      exact h
    · rw [hset]
      refine h.promise hnone ?_ rfl
      simp only [outstanding]
      omega
    · rw [hset]
      exact h.keep rfl rfl
  | callerQueues hcaller =>
    refine h.keep ?_ rfl
    simp only [outstanding, scannerQueueReadyDispatch, List.countP_append, List.countP_singleton, Dispatch.isQueued]
    simp
    omega
  | request scanFlags huser =>
    obtain ⟨requestedFlags, requestPending, worker, hworker, hrequest⟩ := lsmProcessScannerRequest_frame s scanFlags
    rw [hrequest]
    rcases hworker with rfl | rfl
    · exact h.keep rfl rfl
    · exact h.keep (by simp [outstanding]) rfl
  | take huser =>
    unfold lsmProcessScannerTake
    split
    · exact h.keep rfl rfl
    · exact h
  | destroy huser => exact h.keep (by simp [outstanding, lsmProcessScannerDestroy]) rfl
  | applicationReleases hdestroying => exact h.keep rfl rfl
  | next hworker =>
    have hnot : s.worker ≠ .queueing := by
      rcases hworker with hworker | ⟨woken, hworker⟩ <;> simp [hworker]
    obtain ⟨activeFlags, requestPending, scanInProgress, worker, ⟨-, hqueueing⟩, hnext⟩ := scannerThreadNext_frame s
    rw [hnext]
    exact h.keep (by simp [outstanding, hnot, hqueueing, Worker.queues]) rfl
  | finish processes flags hworker => exact h.finish hworker processes
  | workerQueues hworker =>
    refine h.keep ?_ rfl
    simp only [outstanding, scannerQueueReadyDispatch, List.countP_append, List.countP_singleton, Dispatch.isQueued,
      hworker, Worker.queues]
    simp
    omega
  | workerReleases hworker =>
    exact h.keep (by simp [outstanding, scannerRelease, hworker, Worker.queues]) rfl
  | dispatch i hd => exact (h.dispatch hd).2
  | callback i callback hd => exact h.move hd rfl rfl rfl rfl rfl
  | destroySource i hd => exact h.move hd rfl rfl rfl rfl rfl
  | discardSource i hd => exact absurd rfl (hran i)

/-! ### Results are announced -/

/-- A dispatch has read a registered callback since this list was published. -/
def Announced (log : List (Event γ)) (scan : Nat) : Prop :=
  ∃ front back, log = front ++ .published scan :: back ∧ ∃ i callback, .began i (some callback) ∈ back

theorem Announced.append {log : List (Event γ)} {scan : Nat} (h : Announced log scan) (more : List (Event γ)) :
    Announced (log ++ more) scan := by
  obtain ⟨front, back, rfl, i, callback, hbegan⟩ := h
  exact ⟨front, back ++ more, by simp, i, callback, List.mem_append_left _ hbegan⟩

/-- A dispatch that reads a callback announces whatever was published before. -/
theorem announced_of_began {log : List (Event γ)} {scan : Nat} (hpublished : .published scan ∈ log) (i : Nat)
    (callback : γ) : Announced (log ++ [.began i (some callback)]) scan := by
  obtain ⟨front, back, rfl⟩ := List.append_of_mem hpublished
  exact ⟨front, back ++ [.began i (some callback)], by simp, i, callback, by simp⟩

structure Told (log : List (Event γ)) (s : State ρ γ) : Prop where
  /-- A ready result is a list that was published. -/
  ready : s.scanner.resultReady = true →
    ∃ listing, s.scanner.completed = some listing ∧ .published listing.scan ∈ log
  told : ∀ listing, s.scanner.resultReady = true → s.scanner.completed = some listing →
    s.scanner.readyCallback.isSome = true → s.scanner.stopRequested = false →
    s.scanner.readyDispatchPending = true ∨ Announced log listing.scan

theorem Told.create : Told [] (lsmProcessScannerCreate : State ρ γ) :=
  ⟨fun h => absurd h (by simp [lsmProcessScannerCreate]), fun _ h => absurd h (by simp [lsmProcessScannerCreate])⟩

theorem Told.append {log : List (Event γ)} {s : State ρ γ} (h : Told log s) (more : List (Event γ)) :
    Told (log ++ more) s := by
  refine ⟨?_, ?_⟩
  · intro hresult
    obtain ⟨listing, hlisting, hpublished⟩ := h.ready hresult
    exact ⟨listing, hlisting, List.mem_append_left _ hpublished⟩
  · intro listing hresult hlisting hsome hgoing
    rcases h.told listing hresult hlisting hsome hgoing with hpromised | hannounced
    · exact Or.inl hpromised
    · exact Or.inr (hannounced.append more)

/-- A step that leaves results, callback and promise alone. -/
theorem Told.keep {log : List (Event γ)} {s t : State ρ γ} (h : Told log s)
    (hready : t.scanner.resultReady = s.scanner.resultReady) (hcompleted : t.scanner.completed = s.scanner.completed)
    (hcallback : t.scanner.readyCallback = s.scanner.readyCallback)
    (hpending : t.scanner.readyDispatchPending = s.scanner.readyDispatchPending)
    (hstop : t.scanner.stopRequested = s.scanner.stopRequested) : Told log t := by
  refine ⟨?_, ?_⟩
  · rw [hready, hcompleted]
    exact h.ready
  · rw [hready, hcompleted, hcallback, hpending, hstop]
    exact h.told

/-- A step after which no result is ready. -/
theorem Told.none {t : State ρ γ} (hnone : t.scanner.resultReady = false) (log : List (Event γ)) : Told log t :=
  ⟨fun h => absurd (hnone.symm.trans h) (by simp), fun _ h => absurd (hnone.symm.trans h) (by simp)⟩

/-- A step that promises a dispatch, if there is a result and a callback for it. -/
theorem Told.promised {log : List (Event γ)} {t : State ρ γ}
    (hready : t.scanner.resultReady = true →
      ∃ listing, t.scanner.completed = some listing ∧ .published listing.scan ∈ log)
    (hpending : t.scanner.readyCallback.isSome = true → t.scanner.resultReady = true →
      t.scanner.readyDispatchPending = true) : Told log t :=
  ⟨hready, fun _ hresult _ hsome _ => Or.inl (hpending hsome hresult)⟩

theorem Told.setReadyCallback {log : List (Event γ)} {s : State ρ γ} (h : Told log s) (callback : Option γ) :
    Told log (lsmProcessScannerSetReadyCallback s callback) := by
  rcases lsmProcessScannerSetReadyCallback_cases s callback with ⟨-, hset⟩ | ⟨-, hset⟩ | ⟨hpending, hset⟩
  · rw [hset]
    exact h
  · rw [hset]
    exact .promised h.ready fun _ _ => rfl
  · rw [hset]
    exact .promised h.ready hpending

theorem Told.publish {s : State ρ γ} (processes : List ρ) (log : List (Event γ)) :
    Told (log ++ [.published s.scans]) (publish s processes) := by
  have hpublished : Event.published s.scans ∈ log ++ [(.published s.scans : Event γ)] := by simp
  obtain ⟨references, readyDispatchPending, worker, hpromise, hpublish⟩ := publish_frame s processes
  rw [hpublish]
  refine .promised (fun _ => ⟨_, rfl, hpublished⟩) ?_
  intro hsome _
  rcases hpromise with ⟨-, -, -, hpromised⟩ | ⟨-, -, -, hpromised⟩
  · exact hpromised
  · exact hpromised hsome

theorem Told.dispatch {log : List (Event γ)} {s : State ρ γ} (h : Told log s) (i : Nat) :
    Told (log ++ [.began i (if s.scanner.stopRequested then Option.none else s.scanner.readyCallback)])
      (scannerReadyDispatch s i) := by
  refine ⟨(h.append _).ready, ?_⟩
  · intro listing hresult hlisting hsome hgoing
    obtain ⟨callback, hcallback⟩ := Option.isSome_iff_exists.mp hsome
    obtain ⟨listing', hlisting', hpublished⟩ := h.ready hresult
    have hcompleted : s.scanner.completed = some listing := hlisting
    have hregistered : s.scanner.readyCallback = some callback := hcallback
    have hopen : s.scanner.stopRequested = false := hgoing
    rw [hlisting'] at hcompleted
    cases hcompleted
    right
    rw [hopen, if_neg (by simp), hregistered]
    exact announced_of_began hpublished i callback

theorem Told.step {log : List (Event γ)} {s t : State ρ γ} {a : Action ρ γ} (h : Told log s)
    (hstep : machine.step s a = some t) : Told (log ++ events s a) t := by
  cases machine_step hstep with
  | setReadyCallback callback huser =>
    rw [show events s (.setReadyCallback callback) = [] from rfl, List.append_nil]
    exact h.setReadyCallback callback
  | callerQueues hcaller => exact (h.append _).keep rfl rfl rfl rfl rfl
  | request scanFlags huser =>
    obtain ⟨requestedFlags, requestPending, worker, -, hrequest⟩ := lsmProcessScannerRequest_frame s scanFlags
    rw [hrequest]
    exact (h.append _).keep rfl rfl rfl rfl rfl
  | take huser =>
    unfold lsmProcessScannerTake
    split
    · exact .none rfl _
    · exact (h.append _).keep rfl rfl rfl rfl rfl
  | destroy huser => exact ⟨(h.append _).ready, fun _ _ _ _ hgoing => absurd hgoing (by simp [lsmProcessScannerDestroy])⟩
  | applicationReleases hdestroying => exact (h.append _).keep rfl rfl rfl rfl rfl
  | next hworker =>
    obtain ⟨activeFlags, requestPending, scanInProgress, worker, -, hnext⟩ := scannerThreadNext_frame s
    rw [hnext]
    exact (h.append _).keep rfl rfl rfl rfl rfl
  | finish processes flags hworker =>
    rcases scannerThreadFinish_cases s processes with ⟨-, worker, -, hfinish⟩ | ⟨listed, hopen, rfl, hfinish⟩
    · rw [hfinish]
      exact (h.append _).keep rfl rfl rfl rfl rfl
    · rw [hfinish, show events s (.finish (some listed)) = [.published s.scans] by simp [events, hopen]]
      exact .publish listed log
  | workerQueues hworker => exact (h.append _).keep rfl rfl rfl rfl rfl
  | workerReleases hworker => exact (h.append _).keep rfl rfl rfl rfl rfl
  | dispatch i hd => exact h.dispatch i
  | callback i callback hd => exact (h.append _).keep rfl rfl rfl rfl rfl
  | destroySource i hd => exact (h.append _).keep rfl rfl rfl rfl rfl
  | discardSource i hd => exact (h.append _).keep rfl rfl rfl rfl rfl

/-! ### Each list is handed over once -/

def takenScans (log : List (Event γ)) : List Nat :=
  log.filterMap fun
    | .taken scan => some scan
    | _ => none

theorem takenScans_append (a b : List (Event γ)) : takenScans (a ++ b) = takenScans a ++ takenScans b :=
  List.filterMap_append

structure Handed (log : List (Event γ)) (s : State ρ γ) : Prop where
  once : (takenScans log).Nodup
  earlier : ∀ scan ∈ takenScans log, scan < s.scans
  here : ∀ listing, s.scanner.completed = some listing → listing.scan < s.scans ∧ listing.scan ∉ takenScans log

theorem Handed.create : Handed [] (lsmProcessScannerCreate : State ρ γ) :=
  ⟨List.nodup_nil, fun _ h => absurd h List.not_mem_nil, fun _ h => absurd h (by simp [lsmProcessScannerCreate])⟩

/-- A step that neither publishes nor takes. -/
theorem Handed.keep {log : List (Event γ)} {s t : State ρ γ} (h : Handed log s)
    (hcompleted : t.scanner.completed = s.scanner.completed) (hscans : t.scans = s.scans) : Handed log t := by
  refine ⟨h.once, ?_, ?_⟩
  · rw [hscans]
    exact h.earlier
  · rw [hcompleted, hscans]
    exact h.here

theorem Handed.silent {log : List (Event γ)} {s : State ρ γ} (h : Handed log s) {more : List (Event γ)}
    (hmore : takenScans more = []) : Handed (log ++ more) s := by
  have hsame : takenScans (log ++ more) = takenScans log := by
    rw [takenScans_append, hmore, List.append_nil]
  refine ⟨?_, ?_, ?_⟩
  · rw [hsame]
    exact h.once
  · rw [hsame]
    exact h.earlier
  · rw [hsame]
    exact h.here

theorem Handed.publish {log : List (Event γ)} {s : State ρ γ} (h : Handed log s) (processes : List ρ) :
    Handed log (publish s processes) := by
  obtain ⟨references, readyDispatchPending, worker, -, hpublish⟩ := publish_frame s processes
  rw [hpublish]
  refine ⟨h.once, ?_, ?_⟩
  · intro scan hscan
    exact Nat.lt_succ_of_lt (h.earlier scan hscan)
  · intro listing hlisting
    cases hlisting
    exact ⟨Nat.lt_succ_self _, fun hscan => absurd (h.earlier _ hscan) (Nat.lt_irrefl _)⟩

theorem Handed.take {log : List (Event γ)} {s : State ρ γ} (h : Handed log s) :
    Handed (log ++ events s .take) (lsmProcessScannerTake s).1 := by
  cases hready : s.scanner.resultReady with
  | false =>
    simp only [events, lsmProcessScannerTake, hready, Bool.false_eq_true, if_false]
    exact h.silent rfl
  | true =>
    cases hcompleted : s.scanner.completed with
    | none =>
      simp only [events, lsmProcessScannerTake, hready, if_true, hcompleted]
      exact ⟨(h.silent rfl).once, (h.silent rfl).earlier, fun _ hlisting => absurd hlisting (by simp)⟩
    | some listing =>
      obtain ⟨hbound, hfresh⟩ := h.here listing hcompleted
      simp only [events, lsmProcessScannerTake, hready, if_true, hcompleted]
      have htakes : takenScans (log ++ [.taken listing.scan]) = takenScans log ++ [listing.scan] :=
        takenScans_append log _
      refine ⟨?_, ?_, fun _ hlisting => absurd hlisting (by simp)⟩
      · rw [htakes]
        refine List.nodup_append.mpr ⟨h.once, List.nodup_singleton _, ?_⟩
        intro scan hscan other hother hsame
        rw [hsame, List.mem_singleton.mp hother] at hscan
        exact hfresh hscan
      · intro scan hscan
        rw [htakes, List.mem_append, List.mem_singleton] at hscan
        rcases hscan with hscan | hscan
        · exact h.earlier scan hscan
        · rw [hscan]
          exact hbound

theorem Handed.step {log : List (Event γ)} {s t : State ρ γ} {a : Action ρ γ} (h : Handed log s)
    (hstep : machine.step s a = some t) : Handed (log ++ events s a) t := by
  cases machine_step hstep with
  | setReadyCallback callback huser =>
    rcases lsmProcessScannerSetReadyCallback_cases s callback with ⟨-, hset⟩ | ⟨-, hset⟩ | ⟨-, hset⟩
    · rw [hset]
      exact h.silent rfl
    · rw [hset]
      exact (h.silent rfl).keep rfl rfl
    · rw [hset]
      exact (h.silent rfl).keep rfl rfl
  | callerQueues hcaller => exact (h.silent rfl).keep rfl rfl
  | request scanFlags huser =>
    obtain ⟨requestedFlags, requestPending, worker, -, hrequest⟩ := lsmProcessScannerRequest_frame s scanFlags
    rw [hrequest]
    exact (h.silent rfl).keep rfl rfl
  | take huser => exact h.take
  | destroy huser => exact (h.silent rfl).keep rfl rfl
  | applicationReleases hdestroying => exact (h.silent rfl).keep rfl rfl
  | next hworker =>
    obtain ⟨activeFlags, requestPending, scanInProgress, worker, -, hnext⟩ := scannerThreadNext_frame s
    rw [hnext]
    exact (h.silent rfl).keep rfl rfl
  | finish processes flags hworker =>
    rcases scannerThreadFinish_cases s processes with ⟨hnone, worker, -, hfinish⟩ | ⟨listed, hopen, rfl, hfinish⟩
    · have hsilent : events s (.finish processes) = [] := by
        rcases hnone with hstopped | rfl
        · cases processes with
          | none => rfl
          | some processes => simp [events, hstopped]
        · rfl
      rw [hfinish, hsilent, List.append_nil]
      exact h.keep rfl rfl
    · rw [hfinish, show events s (.finish (some listed)) = [.published s.scans] by simp [events, hopen]]
      exact (h.silent rfl).publish listed
  | workerQueues hworker => exact (h.silent rfl).keep rfl rfl
  | workerReleases hworker => exact (h.silent rfl).keep rfl rfl
  | dispatch i hd => exact (h.silent rfl).keep rfl rfl
  | callback i callback hd =>
    have hsilent : takenScans (events s (.callback i)) = [] := by
      cases callback <;> simp [events, hd, takenScans]
    exact (h.silent hsilent).keep rfl rfl
  | destroySource i hd => exact (h.silent rfl).keep rfl rfl
  | discardSource i hd => exact (h.silent rfl).keep rfl rfl

/-! ### Who is called -/

/-- Nothing is read after the stop. -/
def Quiet (e f : Event γ) : Prop := e = .stopped → ∀ i callback, f = .began i callback → callback = none

/-- A dispatch begins once, calls what it has read, and reads nothing after the stop. -/
structure Calls (log : List (Event γ)) (s : State ρ γ) : Prop where
  once : ∀ i c d, .began i c ∈ log → .began i d ∈ log → c = d
  begun : ∀ i c, .began i c ∈ log → ∃ d, s.dispatches[i]? = some d ∧ d ≠ .queued
  entered : ∀ (i : Nat) c, s.dispatches[i]? = some (.entered c) → .began i c ∈ log
  called : ∀ i c, .called i c ∈ log → .began i (some c) ∈ log
  stopped : .stopped ∈ log → s.scanner.stopRequested = true
  quiet : log.Pairwise Quiet

theorem Calls.create : Calls [] (lsmProcessScannerCreate : State ρ γ) where
  once _ _ _ h := absurd h List.not_mem_nil
  begun _ _ h := absurd h List.not_mem_nil
  entered _ _ h := absurd h (by simp [lsmProcessScannerCreate])
  called _ _ h := absurd h List.not_mem_nil
  stopped h := absurd h List.not_mem_nil
  quiet := .nil

/-- Events of the results only. -/
def Event.ofResult : Event γ → Bool
  | .published _ | .taken _ => true
  | _ => false

theorem Calls.silent {log : List (Event γ)} {s : State ρ γ} (h : Calls log s) {more : List (Event γ)}
    (hmore : ∀ e ∈ more, e.ofResult = true) : Calls (log ++ more) s := by
  have hold : ∀ e : Event γ, e.ofResult = false → e ∈ log ++ more → e ∈ log := by
    intro e hother hmem
    rcases List.mem_append.mp hmem with hmem | hmem
    · exact hmem
    · rw [hmore e hmem] at hother
      cases hother
  refine ⟨?_, ?_, ?_, ?_, ?_, ?_⟩
  · intro i c d hc hd
    exact h.once i c d (hold _ rfl hc) (hold _ rfl hd)
  · intro i c hc
    exact h.begun i c (hold _ rfl hc)
  · intro i c hentered
    exact List.mem_append_left _ (h.entered i c hentered)
  · intro i c hc
    exact List.mem_append_left _ (h.called i c (hold _ rfl hc))
  · intro hstopped
    exact h.stopped (hold _ rfl hstopped)
  · refine List.pairwise_append.mpr ⟨h.quiet, ?_, ?_⟩
    · refine List.pairwise_of_forall_mem_list ?_
      intro e he f hf _ i callback hbegan
      have := hmore f hf
      rw [hbegan] at this
      cases this
    · intro e he f hf _ i callback hbegan
      have := hmore f hf
      rw [hbegan] at this
      cases this

/-- A step that begins no dispatch and calls nothing. -/
theorem Calls.keep {log : List (Event γ)} {s t : State ρ γ} (h : Calls log s)
    (hbegun : ∀ (i : Nat) d, s.dispatches[i]? = some d → d ≠ .queued → ∃ e, t.dispatches[i]? = some e ∧ e ≠ .queued)
    (hentered : ∀ (i : Nat) c, t.dispatches[i]? = some (.entered c) → s.dispatches[i]? = some (.entered c))
    (hstop : s.scanner.stopRequested = true → t.scanner.stopRequested = true) : Calls log t := by
  refine ⟨h.once, ?_, ?_, h.called, fun hstopped => hstop (h.stopped hstopped), h.quiet⟩
  · intro i c hc
    obtain ⟨d, hd, hrun⟩ := h.begun i c hc
    exact hbegun i d hd hrun
  · intro i c hc
    exact h.entered i c (hentered i c hc)

/-- A step of somebody else than the main loop. -/
theorem Calls.aside {log : List (Event γ)} {s t : State ρ γ} (h : Calls log s) (hsame : t.dispatches = s.dispatches)
    (hstop : s.scanner.stopRequested = true → t.scanner.stopRequested = true) : Calls log t :=
  h.keep (fun i d hd hrun => ⟨d, by rwa [hsame], hrun⟩) (fun i c hc => by rwa [hsame] at hc) hstop

theorem Calls.queue {log : List (Event γ)} {s t : State ρ γ} (h : Calls log s)
    (hmore : t.dispatches = s.dispatches ++ [.queued])
    (hstop : s.scanner.stopRequested = true → t.scanner.stopRequested = true) : Calls log t := by
  refine h.keep ?_ ?_ hstop
  · intro i d hd hrun
    obtain ⟨hi, -⟩ := List.getElem?_eq_some_iff.mp hd
    exact ⟨d, by rw [hmore, List.getElem?_append_left hi, hd], hrun⟩
  · intro i c hc
    rw [hmore] at hc
    by_cases hi : i < s.dispatches.length
    · rwa [List.getElem?_append_left hi] at hc
    · rw [List.getElem?_append_right (by omega)] at hc
      have := List.mem_singleton.mp (List.mem_of_getElem? hc)
      cases this

/-- A dispatch that has run, or never will, moves on. -/
theorem Calls.move {log : List (Event γ)} {s t : State ρ γ} (h : Calls log s) {i : Nat} {d : Dispatch γ}
    (hd : s.dispatches[i]? = some d) {e : Dispatch γ} (hset : t.dispatches = s.dispatches.set i e)
    (hqueued : e ≠ .queued) (hentered : ∀ c, e ≠ .entered c)
    (hstop : s.scanner.stopRequested = true → t.scanner.stopRequested = true) : Calls log t := by
  obtain ⟨hi, -⟩ := List.getElem?_eq_some_iff.mp hd
  refine h.keep ?_ ?_ hstop
  · intro j f hf hrun
    by_cases hj : j = i
    · exact ⟨e, by rw [hset, hj, List.getElem?_set_self hi], hqueued⟩
    · exact ⟨f, by rw [hset, List.getElem?_set_ne (Ne.symm hj), hf], hrun⟩
  · intro j c hc
    rw [hset] at hc
    by_cases hj : j = i
    · rw [hj, List.getElem?_set_self hi] at hc
      exact absurd (Option.some.inj hc) (hentered c)
    · rwa [List.getElem?_set_ne (Ne.symm hj)] at hc

theorem Calls.dispatch {log : List (Event γ)} {s : State ρ γ} (h : Calls log s) {i : Nat}
    (hd : s.dispatches[i]? = some .queued) :
    Calls (log ++ [.began i (if s.scanner.stopRequested then none else s.scanner.readyCallback)])
      (scannerReadyDispatch s i) := by
  obtain ⟨hi, -⟩ := List.getElem?_eq_some_iff.mp hd
  have hnew : ∀ c, .began i c ∉ log := by
    intro c hc
    obtain ⟨d, hd', hrun⟩ := h.begun i c hc
    rw [hd] at hd'
    exact hrun (Option.some.inj hd').symm
  have hbegan : ∀ j c, Event.began j c ∈ log ++ [.began i (if s.scanner.stopRequested then none
      else s.scanner.readyCallback)] →
      .began j c ∈ log ∨ j = i ∧ c = if s.scanner.stopRequested then none else s.scanner.readyCallback := by
    intro j c hc
    simpa using hc
  refine ⟨?_, ?_, ?_, ?_, ?_, ?_⟩
  · intro j c d hc hd
    rcases hbegan j c hc with hcold | ⟨rfl, rfl⟩
    · rcases hbegan j d hd with hdold | ⟨rfl, rfl⟩
      · exact h.once j c d hcold hdold
      · exact absurd hcold (hnew c)
    · rcases hbegan j d hd with hdold | ⟨-, rfl⟩
      · exact absurd hdold (hnew d)
      · rfl
  · intro j c hc
    by_cases hj : j = i
    · exact ⟨_, by rw [hj]; exact List.getElem?_set_self hi, by simp⟩
    · rcases hbegan j c hc with hc | ⟨rfl, -⟩
      · obtain ⟨d, hd', hrun⟩ := h.begun j c hc
        exact ⟨d, (List.getElem?_set_ne (Ne.symm hj)).trans hd', hrun⟩
      · exact absurd rfl hj
  · intro j c hc
    have hc' : (s.dispatches.set i (.entered (if s.scanner.stopRequested then none
      else s.scanner.readyCallback)))[j]? = some (.entered c) := hc
    by_cases hj : j = i
    · rw [hj, List.getElem?_set_self hi] at hc'
      cases hc'
      rw [hj]
      exact List.mem_append_right _ (List.mem_singleton_self _)
    · rw [List.getElem?_set_ne (Ne.symm hj)] at hc'
      exact List.mem_append_left _ (h.entered j c hc')
  · intro j c hc
    have hold : .called j c ∈ log := by simpa using hc
    exact List.mem_append_left _ (h.called j c hold)
  · intro hstopped
    have hold : .stopped ∈ log := by simpa using hstopped
    exact h.stopped hold
  · refine List.pairwise_append.mpr ⟨h.quiet, List.pairwise_singleton _ _, ?_⟩
    intro e he f hf hstopped j c hbegan
    rw [List.mem_singleton] at hf
    rw [hf] at hbegan
    cases hbegan
    rw [if_pos (h.stopped (hstopped ▸ he))]

theorem Calls.callback {log : List (Event γ)} {s : State ρ γ} (h : Calls log s) {i : Nat} {callback : Option γ}
    (hd : s.dispatches[i]? = some (.entered callback)) :
    Calls (log ++ events s (.callback i)) {s with dispatches := s.dispatches.set i .returned} := by
  have hmoved : Calls log {s with dispatches := s.dispatches.set i .returned} :=
    h.move hd rfl (by simp) (by simp) id
  cases callback with
  | none =>
    simp only [events, hd, List.append_nil]
    exact hmoved
  | some callback =>
    simp only [events, hd]
    have hold : ∀ e : Event γ, (∀ j c, e ≠ .called j c) → e ∈ log ++ [.called i callback] → e ∈ log := by
      intro e hother hmem
      rcases List.mem_append.mp hmem with hmem | hmem
      · exact hmem
      · exact absurd (List.mem_singleton.mp hmem) (hother i callback)
    refine ⟨?_, ?_, ?_, ?_, ?_, ?_⟩
    · intro j c d hc hd
      exact hmoved.once j c d (hold _ (by simp) hc) (hold _ (by simp) hd)
    · intro j c hc
      exact hmoved.begun j c (hold _ (by simp) hc)
    · intro j c hc
      exact List.mem_append_left _ (hmoved.entered j c hc)
    · intro j c hc
      rcases List.mem_append.mp hc with hc | hc
      · exact List.mem_append_left _ (h.called j c hc)
      · cases List.mem_singleton.mp hc
        exact List.mem_append_left _ (h.entered i (some callback) hd)
    · intro hstopped
      exact hmoved.stopped (hold _ (by simp) hstopped)
    · refine List.pairwise_append.mpr ⟨h.quiet, List.pairwise_singleton _ _, ?_⟩
      intro e he f hf _ j c hbegan
      rw [List.mem_singleton.mp hf] at hbegan
      cases hbegan

theorem Calls.destroy {log : List (Event γ)} {s : State ρ γ} (h : Calls log s) :
    Calls (log ++ [.stopped]) (lsmProcessScannerDestroy s) := by
  have hold : ∀ e : Event γ, e ≠ .stopped → e ∈ log ++ [.stopped] → e ∈ log := by
    intro e hother hmem
    rcases List.mem_append.mp hmem with hmem | hmem
    · exact hmem
    · exact absurd (List.mem_singleton.mp hmem) hother
  refine ⟨?_, ?_, ?_, ?_, fun _ => rfl, ?_⟩
  · intro i c d hc hd
    exact h.once i c d (hold _ (by simp) hc) (hold _ (by simp) hd)
  · intro i c hc
    exact h.begun i c (hold _ (by simp) hc)
  · intro i c hc
    exact List.mem_append_left _ (h.entered i c hc)
  · intro i c hc
    exact List.mem_append_left _ (h.called i c (hold _ (by simp) hc))
  · refine List.pairwise_append.mpr ⟨h.quiet, List.pairwise_singleton _ _, ?_⟩
    intro e he f hf _ j c hbegan
    rw [List.mem_singleton.mp hf] at hbegan
    cases hbegan

theorem Calls.step {log : List (Event γ)} {s t : State ρ γ} {a : Action ρ γ} (h : Calls log s)
    (hstep : machine.step s a = some t) : Calls (log ++ events s a) t := by
  have hsilent : Calls (log ++ []) s := h.silent fun e he => absurd he List.not_mem_nil
  cases machine_step hstep with
  | setReadyCallback callback huser =>
    rcases lsmProcessScannerSetReadyCallback_cases s callback with ⟨-, hset⟩ | ⟨-, hset⟩ | ⟨-, hset⟩
    · rw [hset]
      exact hsilent
    · rw [hset]
      exact hsilent.aside rfl id
    · rw [hset]
      exact hsilent.aside rfl id
  | callerQueues hcaller => exact hsilent.queue rfl id
  | request scanFlags huser =>
    obtain ⟨requestedFlags, requestPending, worker, -, hrequest⟩ := lsmProcessScannerRequest_frame s scanFlags
    rw [hrequest]
    exact hsilent.aside rfl id
  | take huser =>
    have hresult : ∀ e ∈ events s .take, e.ofResult = true := by
      intro e he
      simp only [events] at he
      split at he
      · rw [List.mem_singleton.mp he]
        rfl
      · cases he
    unfold lsmProcessScannerTake
    split
    · exact (h.silent hresult).aside rfl id
    · exact h.silent hresult
  | destroy huser => exact h.destroy
  | applicationReleases hdestroying => exact hsilent.aside rfl id
  | next hworker =>
    obtain ⟨activeFlags, requestPending, scanInProgress, worker, -, hnext⟩ := scannerThreadNext_frame s
    rw [hnext]
    exact hsilent.aside rfl id
  | finish processes flags hworker =>
    have hresult : ∀ e ∈ events s (.finish processes), e.ofResult = true := by
      intro e he
      cases processes with
      | none => cases he
      | some processes =>
        simp only [events] at he
        split at he
        · cases he
        · rw [List.mem_singleton.mp he]
          rfl
    rcases scannerThreadFinish_cases s processes with ⟨-, worker, -, hfinish⟩ | ⟨listed, -, -, hfinish⟩
    · rw [hfinish]
      exact (h.silent hresult).aside rfl id
    · obtain ⟨references, readyDispatchPending, worker, -, hpublish⟩ := publish_frame s listed
      rw [hfinish, hpublish]
      exact (h.silent hresult).aside rfl id
  | workerQueues hworker => exact hsilent.queue rfl id
  | workerReleases hworker => exact hsilent.aside rfl id
  | dispatch i hd => exact h.dispatch hd
  | callback i callback hd => exact h.callback hd
  | destroySource i hd => exact hsilent.move hd rfl (by simp) (by simp) id
  | discardSource i hd => exact hsilent.move hd rfl (by simp) (by simp) id

/-! ### Whole runs -/

/-- All that is known of a state and the events so far. -/
structure Delivering (log : List (Event γ)) (s : State ρ γ) : Prop where
  outstanding : Outstanding s
  told : Told log s
  handed : Handed log s
  calls : Calls log s

theorem Delivering.run {actions : List (Action ρ γ)} {s : State ρ γ} (hran : ∀ i, .discardSource i ∉ actions)
    (hrun : machine.run lsmProcessScannerCreate actions = some s) :
    Delivering (machine.trace events lsmProcessScannerCreate actions) s := by
  have hstart : Delivering [] (lsmProcessScannerCreate : State ρ γ) := ⟨rfl, .create, .create, .create⟩
  have hrule : machine.Admissible (fun _ a => ∀ i, a ≠ .discardSource i) (lsmProcessScannerCreate : State ρ γ)
      actions := by
    apply machine.admissible_of_forall
    intro a ha _ i heq
    exact hran i (heq ▸ ha)
  refine machine.run_trace_invariant events _ Delivering ?_ hstart hrule hrun
  intro log s a t h hkept hstep
  exact ⟨h.outstanding.step hkept hstep, h.told.step hstep, h.handed.step hstep, h.calls.step hstep⟩

/-- **Results are delivered.** In every schedule in which queued sources run: a
ready result with a callback registered is about to be announced, or a dispatch
has read a registered callback since it was published; at most one dispatch has
been promised and has not run, and one has exactly when the flag says so; a
failed scan leaves the last result as it was; each list is taken at most once;
and a dispatch that begins after `destroy` calls nothing. -/
theorem delivery {actions : List (Action ρ γ)} {s : State ρ γ} (hran : ∀ i, .discardSource i ∉ actions)
    (hrun : machine.run lsmProcessScannerCreate actions = some s) :
    (s.scanner.resultReady = true → s.scanner.readyCallback.isSome = true → s.scanner.stopRequested = false →
      s.scanner.readyDispatchPending = true ∨ ∃ listing, s.scanner.completed = some listing ∧
        Announced (machine.trace events lsmProcessScannerCreate actions) listing.scan) ∧
    (outstanding s = if s.scanner.readyDispatchPending then 1 else 0) ∧
    (∀ t, machine.step s (.finish none) = some t → t.scanner.completed = s.scanner.completed ∧
      t.scanner.completedCount = s.scanner.completedCount ∧ t.scanner.resultReady = s.scanner.resultReady) ∧
    (takenScans (machine.trace events lsmProcessScannerCreate actions)).Nodup ∧
    ∀ front back i callback, machine.trace events lsmProcessScannerCreate actions = front ++ .stopped :: back →
      .began i callback ∈ back →
      callback = none ∧ ∀ c, .called i c ∉ machine.trace events lsmProcessScannerCreate actions := by
  have h := Delivering.run hran hrun
  refine ⟨?_, ?_, ?_, h.handed.once, ?_⟩
  · intro hready hsome hgoing
    obtain ⟨listing, hlisting, -⟩ := h.told.ready hready
    rcases h.told.told listing hready hlisting hsome hgoing with hpromised | hannounced
    · exact Or.inl hpromised
    · exact Or.inr ⟨listing, hlisting, hannounced⟩
  · rw [h.outstanding]
    cases s.scanner.readyDispatchPending <;> rfl
  · intro t hstep
    cases machine_step hstep with
    | finish processes flags hworker =>
      unfold scannerThreadFinish
      split
      · exact ⟨rfl, rfl, rfl⟩
      · exact ⟨rfl, rfl, rfl⟩
  · intro front back i callback hlog hbegan
    have hquiet := h.calls.quiet
    rw [hlog, List.pairwise_append, List.pairwise_cons] at hquiet
    have hnone : callback = none := hquiet.2.1.1 _ hbegan rfl i callback rfl
    refine ⟨hnone, ?_⟩
    intro c hcalled
    have hread : .began i callback ∈ machine.trace events lsmProcessScannerCreate actions := by
      rw [hlog]
      exact List.mem_append_right _ (List.mem_cons_of_mem _ hbegan)
    have hsame := h.calls.once i _ _ hread (h.calls.called i c hcalled)
    rw [hnone] at hsame
    cases hsame

/-- A result is announced, taken, and another published; then the stop. -/
def twoResults : List (Action Nat Nat) :=
  [.setReadyCallback (some 5), .next, .finish (some [7]), .workerQueues, .dispatch 0, .callback 0, .take,
    .request 1, .destroySource 0, .next, .finish (some [8]), .workerQueues, .destroy, .dispatch 1, .callback 1]

theorem delivery_twoResults :
    ∃ s, machine.run lsmProcessScannerCreate twoResults = some s ∧
      machine.trace events lsmProcessScannerCreate twoResults =
        [.published 0, .began 0 (some 5), .called 0 5, .taken 0, .published 1, .stopped, .began 1 none] ∧
      (takenScans (machine.trace events lsmProcessScannerCreate twoResults)).Nodup ∧ outstanding s = 0 := by
  have htrace : machine.trace events lsmProcessScannerCreate twoResults =
      [.published 0, .began 0 (some 5), .called 0 5, .taken 0, .published 1, .stopped, .began 1 none] := by
    decide
  have hend : (machine.run lsmProcessScannerCreate twoResults).map (fun s : State Nat Nat =>
      decide (s.scanner.readyDispatchPending = false)) = some true := by decide
  obtain ⟨s, hrun, hpending⟩ := machine.run_decided hend
  obtain ⟨-, houtstanding, -, htaken, -⟩ := delivery (by simp [twoResults]) hrun
  rw [hpending] at houtstanding
  exact ⟨s, hrun, htrace, htaken, houtstanding⟩

end SystemMonitor.Scanner
