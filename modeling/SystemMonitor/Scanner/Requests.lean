import SystemMonitor.Scanner.Model

/-! The newest request is served.

A request outside a scan overwrites the flags and signals if none was pending;
one during a scan is satisfied by it, or waits for it without a signal. Whatever
the order, the newest request is pending, or being scanned, or has been
(`coalescing`), and the worker does not sleep through it. -/
namespace SystemMonitor.Scanner
open Lib

variable {ρ γ : Type}

/-- The flags of each scan, as it starts. -/
def starts (s : State ρ γ) : Action ρ γ → List UInt32
  | .next => if s.scanner.requestPending && !s.scanner.stopRequested then [s.scanner.requestedFlags] else []
  | _ => []

/-- A request is under way while the worker scans, with the flags it scans; and a
worker that sleeps with something to do has a wake-up on its way. -/
structure Attended (s : State ρ γ) : Prop where
  scanning : s.scanner.scanInProgress = true ↔ ∃ flags, s.worker = .scanning flags
  awake : s.worker = .blocked false → s.scanner.requestPending = false ∧ s.scanner.stopRequested = false

theorem Attended.create : Attended (lsmProcessScannerCreate : State ρ γ) :=
  ⟨by simp [lsmProcessScannerCreate], by simp [lsmProcessScannerCreate]⟩

/-- A step of somebody else that raises no request. -/
theorem Attended.keep {s t : State ρ γ} (h : Attended s) (hworker : t.worker = s.worker)
    (hprogress : t.scanner.scanInProgress = s.scanner.scanInProgress)
    (hpending : t.scanner.requestPending = true → s.scanner.requestPending = true)
    (hstop : t.scanner.stopRequested = s.scanner.stopRequested) : Attended t := by
  refine ⟨by rw [hprogress, hworker, h.scanning], ?_⟩
  intro hblocked
  obtain ⟨hnone, hgoing⟩ := h.awake (hworker ▸ hblocked)
  refine ⟨?_, hstop.trans hgoing⟩
  rw [← Bool.not_eq_true]
  intro hraised
  rw [hpending hraised] at hnone
  cases hnone

theorem Worker.signal_ne (worker : Worker) : worker.signal ≠ .blocked false := by
  cases worker <;> simp [Worker.signal]

theorem Worker.signal_scanning (worker : Worker) :
    (∃ flags, worker.signal = .scanning flags) ↔ ∃ flags, worker = .scanning flags := by
  cases worker <;> simp [Worker.signal]

/-- A step that signals. -/
theorem Attended.signalled {s t : State ρ γ} (h : Attended s) (hworker : t.worker = s.worker.signal)
    (hprogress : t.scanner.scanInProgress = s.scanner.scanInProgress) : Attended t :=
  ⟨by rw [hprogress, hworker, Worker.signal_scanning, h.scanning],
    fun hblocked => absurd (hworker.symm.trans hblocked) s.worker.signal_ne⟩

theorem Attended.request {s : State ρ γ} (h : Attended s) (scanFlags : UInt32) :
    Attended (lsmProcessScannerRequest s scanFlags).1 := by
  unfold lsmProcessScannerRequest
  split
  · exact h
  · split
    · rename_i hprogress
      split
      · exact h.keep rfl rfl (fun hraised => absurd hraised (by simp)) rfl
      · -- No signal, but the worker is scanning.
        obtain ⟨flags, hscanning⟩ := h.scanning.mp hprogress
        refine ⟨h.scanning, ?_⟩
        intro hblocked
        rw [hscanning] at hblocked
        cases hblocked
    · split
      · exact h.keep rfl rfl id rfl
      · exact h.signalled rfl rfl

theorem Attended.next {s : State ρ γ} (h : Attended s)
    (hworker : s.worker = .looping ∨ ∃ woken, s.worker = .blocked woken) : Attended (scannerThreadNext s) := by
  have hidle : s.scanner.scanInProgress = false := by
    rw [← Bool.not_eq_true, h.scanning]
    rcases hworker with hworker | ⟨woken, hworker⟩ <;> simp [hworker]
  unfold scannerThreadNext
  split
  · rename_i hnothing
    simp only [Bool.and_eq_true, Bool.not_eq_true'] at hnothing
    exact ⟨by simp [hidle], fun _ => hnothing⟩
  · split
    · exact ⟨by simp [hidle], fun hblocked => absurd hblocked (by simp)⟩
    · exact ⟨by simp, fun hblocked => absurd hblocked (by simp)⟩

theorem Attended.finish (s : State ρ γ) (processes : Option (List ρ)) : Attended (scannerThreadFinish s processes) := by
  rcases scannerThreadFinish_cases s processes with ⟨-, worker, hon, hfinish⟩ | ⟨listed, -, -, hfinish⟩
  · rw [hfinish]
    rcases hon with rfl | rfl
    · exact ⟨by simp, by simp⟩
    · exact ⟨by simp, by simp⟩
  · obtain ⟨references, readyDispatchPending, worker, hpromise, hpublish⟩ := publish_frame s listed
    rw [hfinish, hpublish]
    rcases hpromise with ⟨rfl, -⟩ | ⟨rfl, -⟩
    · exact ⟨by simp, by simp⟩
    · exact ⟨by simp, by simp⟩

theorem Attended.step {s t : State ρ γ} {a : Action ρ γ} (h : Attended s) (hstep : machine.step s a = some t) :
    Attended t := by
  cases machine_step hstep with
  | setReadyCallback callback huser =>
    rcases lsmProcessScannerSetReadyCallback_cases s callback with ⟨-, hset⟩ | ⟨-, hset⟩ | ⟨-, hset⟩
    · rw [hset]
      exact h
    · rw [hset]
      exact h.keep rfl rfl id rfl
    · rw [hset]
      exact h.keep rfl rfl id rfl
  | callerQueues hcaller => exact h.keep rfl rfl id rfl
  | request scanFlags huser => exact h.request scanFlags
  | take huser =>
    unfold lsmProcessScannerTake
    split
    · exact h.keep rfl rfl id rfl
    · exact h
  | destroy huser => exact h.signalled rfl rfl
  | applicationReleases hdestroying => exact h.keep rfl rfl id rfl
  | next hworker => exact h.next hworker
  | finish processes flags hworker => exact .finish s processes
  | workerQueues hworker =>
    have hidle := h.scanning
    rw [hworker] at hidle
    exact ⟨by simpa [scannerQueueReadyDispatch] using hidle, by simp [scannerQueueReadyDispatch]⟩
  | workerReleases hworker =>
    have hidle := h.scanning
    rw [hworker] at hidle
    exact ⟨by simpa [scannerRelease] using hidle, by simp [scannerRelease]⟩
  | dispatch i hd => exact h.keep rfl rfl id rfl
  | callback i callback hd => exact h.keep rfl rfl id rfl
  | destroySource i hd => exact h.keep rfl rfl id rfl
  | discardSource i hd => exact h.keep rfl rfl id rfl

/-! ### The newest request -/

/-- The request is pending, or a scan for it has started since. -/
def Serving (flags : UInt32) (since : List UInt32) (s : State ρ γ) : Prop :=
  s.scanner.requestPending = true ∧ s.scanner.requestedFlags = flags ∨ flags ∈ since

theorem Serving.keep {flags : UInt32} {since : List UInt32} {s t : State ρ γ} (h : Serving flags since s)
    (hpending : t.scanner.requestPending = s.scanner.requestPending)
    (hflags : t.scanner.requestedFlags = s.scanner.requestedFlags) (more : List UInt32) :
    Serving flags (since ++ more) t := by
  rcases h with hwaiting | hstarted
  · left
    rw [hpending, hflags]
    exact hwaiting
  · exact Or.inr (List.mem_append_left _ hstarted)

/-- A request is satisfied by the scan in flight, or is left pending. -/
theorem lsmProcessScannerRequest_serving (s : State ρ γ) (flags : UInt32) (hgoing : s.scanner.stopRequested = false) :
    s.scanner.scanInProgress = true ∧ s.scanner.activeFlags = flags ∨
      Serving flags [] (lsmProcessScannerRequest s flags).1 := by
  unfold lsmProcessScannerRequest
  rw [if_neg (by simp [hgoing])]
  split
  · rename_i hprogress
    split
    · rename_i hsame
      exact Or.inl ⟨hprogress, hsame.symm⟩
    · exact Or.inr (Or.inl ⟨rfl, rfl⟩)
  · split
    · rename_i hpending
      exact Or.inr (Or.inl ⟨hpending, rfl⟩)
    · exact Or.inr (Or.inl ⟨rfl, rfl⟩)

/-- No step but a newer request and the stop takes a request away unserved. -/
theorem Serving.step {flags : UInt32} {since : List UInt32} {s t : State ρ γ} {a : Action ρ γ}
    (h : Serving flags since s) (hnewest : ∀ newer, a ≠ .request newer) (hstep : machine.step s a = some t)
    (hgoing : t.scanner.stopRequested = false) : Serving flags (since ++ starts s a) t := by
  cases machine_step hstep with
  | request scanFlags huser => exact absurd rfl (hnewest scanFlags)
  | destroy huser => cases hgoing
  | setReadyCallback callback huser =>
    rcases lsmProcessScannerSetReadyCallback_cases s callback with ⟨-, hset⟩ | ⟨-, hset⟩ | ⟨-, hset⟩
    · rw [hset]
      exact h.keep rfl rfl _
    · rw [hset]
      exact h.keep rfl rfl _
    · rw [hset]
      exact h.keep rfl rfl _
  | next hworker =>
    rcases h with ⟨hpending, hflags⟩ | hstarted
    · right
      have hopen : s.scanner.stopRequested = false := by
        rw [← Bool.not_eq_true]
        intro hstopped
        simp [scannerThreadNext, hstopped] at hgoing
      simp [starts, hpending, hopen, hflags]
    · exact Or.inr (List.mem_append_left _ hstarted)
  | finish processes workerFlags hworker =>
    rcases scannerThreadFinish_cases s processes with ⟨-, worker, -, hfinish⟩ | ⟨listed, -, -, hfinish⟩
    · rw [hfinish]
      exact h.keep rfl rfl _
    · obtain ⟨references, readyDispatchPending, worker, -, hpublish⟩ := publish_frame s listed
      rw [hfinish, hpublish]
      exact h.keep rfl rfl _
  | take huser =>
    unfold lsmProcessScannerTake
    split
    · exact h.keep rfl rfl _
    · exact h.keep rfl rfl _
  | callerQueues hcaller => exact h.keep rfl rfl _
  | applicationReleases hdestroying => exact h.keep rfl rfl _
  | workerQueues hworker => exact h.keep rfl rfl _
  | workerReleases hworker => exact h.keep rfl rfl _
  | dispatch i hd => exact h.keep rfl rfl _
  | callback i callback hd => exact h.keep rfl rfl _
  | destroySource i hd => exact h.keep rfl rfl _
  | discardSource i hd => exact h.keep rfl rfl _

/-- The stop is for good. -/
theorem step_stopped {s t : State ρ γ} {a : Action ρ γ} (h : s.scanner.stopRequested = true)
    (hstep : machine.step s a = some t) : t.scanner.stopRequested = true := by
  cases machine_step hstep with
  | setReadyCallback callback huser =>
    unfold lsmProcessScannerSetReadyCallback
    rw [if_pos h]
    exact h
  | request scanFlags huser =>
    unfold lsmProcessScannerRequest
    rw [if_pos h]
    exact h
  | take huser =>
    unfold lsmProcessScannerTake
    split
    · exact h
    · exact h
  | next hworker =>
    obtain ⟨activeFlags, requestPending, scanInProgress, worker, -, hnext⟩ := scannerThreadNext_frame s
    rw [hnext]
    exact h
  | finish processes flags hworker =>
    unfold scannerThreadFinish
    rw [if_pos h]
    exact h
  | destroy huser => rfl
  | callerQueues hcaller => exact h
  | applicationReleases hdestroying => exact h
  | workerQueues hworker => exact h
  | workerReleases hworker => exact h
  | dispatch i hd => exact h
  | callback i callback hd => exact h
  | destroySource i hd => exact h
  | discardSource i hd => exact h

theorem run_stopped {s t : State ρ γ} {actions : List (Action ρ γ)} (h : s.scanner.stopRequested = true)
    (hrun : machine.run s actions = some t) : t.scanner.stopRequested = true :=
  machine.run_preserves (fun s => s.scanner.stopRequested = true) (fun _ _ _ h hstep => step_stopped h hstep) h hrun

theorem Serving.run {flags : UInt32} {since : List UInt32} {s t : State ρ γ} {actions : List (Action ρ γ)}
    (h : Serving flags since s) (hnewest : ∀ newer, .request newer ∉ actions)
    (hrun : machine.run s actions = some t) (hgoing : t.scanner.stopRequested = false) :
    Serving flags (since ++ machine.trace starts s actions) t := by
  induction actions generalizing s since with
  | nil =>
    cases hrun
    exact h.keep rfl rfl _
  | cons a rest ih =>
    obtain ⟨u, hstep, hrest⟩ := machine.run_cons hrun
    have hopen : u.scanner.stopRequested = false := by
      rw [← Bool.not_eq_true]
      intro hstopped
      rw [run_stopped hstopped hrest] at hgoing
      cases hgoing
    rw [machine.trace_cons starts hstep, ← List.append_assoc]
    apply ih (h.step _ hstep hopen)
    · intro newer hmem
      exact hnewest newer (List.mem_cons_of_mem _ hmem)
    · exact hrest
    · intro newer heq
      exact hnewest newer (heq ▸ List.mem_cons_self ..)

/-- **Coalescing loses nothing.** In every schedule, before the stop: the flags of
the newest accepted request are pending, or a scan with them has started since
the request (it may still be in progress), or one was in flight when it came;
and the worker does not sleep on a pending request without a wake-up on its way. -/
theorem coalescing {actions : List (Action ρ γ)} {s : State ρ γ}
    (hrun : machine.run lsmProcessScannerCreate actions = some s) :
    (∀ before flags after s₀ s₁, actions = before ++ .request flags :: after →
      machine.run lsmProcessScannerCreate before = some s₀ → machine.step s₀ (.request flags) = some s₁ →
      (∀ newer, .request newer ∉ after) → s.scanner.stopRequested = false →
      s.scanner.requestPending = true ∧ s.scanner.requestedFlags = flags ∨
        flags ∈ machine.trace starts s₁ after ∨
        s₀.scanner.scanInProgress = true ∧ s₀.scanner.activeFlags = flags) ∧
    ((∀ newer, .request newer ∉ actions) → s.scanner.stopRequested = false →
      s.scanner.requestPending = true ∧ s.scanner.requestedFlags = lsmProcessScanExecutable ∨
        lsmProcessScanExecutable ∈ machine.trace starts lsmProcessScannerCreate actions) ∧
    ¬(s.worker = .blocked false ∧ s.scanner.requestPending = true) := by
  refine ⟨?_, ?_, ?_⟩
  · intro before flags after s₀ s₁ hactions hbefore hstep hnewest hgoing
    subst hactions
    rw [machine.run_append, hbefore, Option.bind_some, Machine.run, hstep, Option.bind_some] at hrun
    have hopen : s₀.scanner.stopRequested = false := by
      rw [← Bool.not_eq_true]
      intro hstopped
      rw [run_stopped (step_stopped hstopped hstep) hrun] at hgoing
      cases hgoing
    cases machine_step hstep with
    | request scanFlags huser =>
      rcases lsmProcessScannerRequest_serving s₀ flags hopen with hflight | hserving
      · exact Or.inr (Or.inr hflight)
      · rcases hserving.run hnewest hrun hgoing with hpending | hstarted
        · exact Or.inl hpending
        · exact Or.inr (Or.inl hstarted)
  · intro hnone hgoing
    have hserving : Serving lsmProcessScanExecutable [] (lsmProcessScannerCreate : State ρ γ) := Or.inl ⟨rfl, rfl⟩
    exact hserving.run hnone hrun hgoing
  · intro hasleep
    have hattended := machine.run_preserves Attended (fun _ _ _ h hstep => h.step hstep) Attended.create hrun
    have hnone := (hattended.awake hasleep.1).1
    rw [hasleep.2] at hnone
    cases hnone

/-- The first scan is under way; something else is asked for, then what is being
scanned, then something else again. -/
def changesOfMind : List (Action Nat Nat) := [.next, .request 4, .request 1, .request 4]

theorem coalescing_changesOfMind :
    ∃ s₁ s, machine.run lsmProcessScannerCreate (changesOfMind ++ [.finish (some []), .next]) = some s ∧
      machine.run lsmProcessScannerCreate changesOfMind = some s₁ ∧
      s.scanner.requestPending = false ∧
      (4 : UInt32) ∈ machine.trace starts s₁ [.finish (some []), .next] := by
  have hbefore : (machine.run lsmProcessScannerCreate [.next, .request 4, .request 1]).map (fun s : State Nat Nat =>
      decide (s.scanner.activeFlags = 1)) = some true := by decide
  have hboth : (machine.run lsmProcessScannerCreate changesOfMind).isSome = true := by decide
  have hend : (machine.run lsmProcessScannerCreate (changesOfMind ++ [.finish (some []), .next])).map
      (fun s : State Nat Nat => decide (s.scanner.requestPending = false ∧ s.scanner.stopRequested = false)) =
        some true := by decide
  obtain ⟨s₀, hrun₀, hactive⟩ := machine.run_decided hbefore
  obtain ⟨s₁, hrun₁⟩ := Option.isSome_iff_exists.mp hboth
  obtain ⟨s, hrun, hnone, hgoing⟩ := machine.run_decided hend
  have hstep : machine.step s₀ (.request 4) = some s₁ := by
    have hsplit : changesOfMind = [.next, .request 4, .request 1] ++ [.request 4] := rfl
    rw [hsplit, machine.run_append, hrun₀, Option.bind_some, Machine.run, Option.bind_eq_some_iff] at hrun₁
    obtain ⟨u, hstep, hnil⟩ := hrun₁
    cases hnil
    exact hstep
  refine ⟨s₁, s, hrun, hrun₁, hnone, ?_⟩
  rcases (coalescing hrun).1 _ 4 [.finish (some []), .next] s₀ s₁ rfl hrun₀ hstep (by simp) hgoing with
    hpending | hstarted | hflight
  · rw [hnone] at hpending
    cases hpending.1
  · exact hstarted
  · rw [hactive] at hflight
    exact absurd hflight.2 (by decide)

end SystemMonitor.Scanner
