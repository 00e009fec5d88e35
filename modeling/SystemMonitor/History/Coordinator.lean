import SystemMonitor.Lib.Machine
import SystemMonitor.History.Record

/-! The save coordinator.

Any number of threads may be inside `lsm_history_persistence_request_write` at
once. A call tests twice whether its request is stale, first without the mutex
and then under it, against two atomics that others move; between the two it
makes the directory and formats its text, and either may fail. An action here is
one atomic operation of one call, so a run is a schedule of the threads.

`save_ordering` says what holds in every schedule. The file and the atomic that
names its generation are not changed together: in between, the file is already
that of the call that is about to store its generation. -/
namespace SystemMonitor.History
open Lib

/-- `ERANGE`. -/
def rangeFailure : Nat := 34

/-- Where a call stands. -/
inductive Phase where
  | entered
  | scheduledTested
  | tested
  | prepared
  | formatted (output : Text)
  | locked (output : Text)
  | loaded (output : Text) (latest : Nat)
  | checked (output : Text)
  | replaced
  | stored
  | unlocking (failure : Nat)
  | returned (failure : Nat) (written : Bool)
  deriving DecidableEq

structure Call where
  request : LsmHistorySaveRequest
  phase : Phase
  deriving DecidableEq

/-- The coordinator, the file, and the calls. `noted` and `writes` are what the
results speak about: the generations scheduled so far, and the calls that have
replaced the file, in order. -/
structure Persistence where
  latestScheduled : Nat := 0
  latestWritten : Nat := 0
  mutex : Option Nat := none
  file : Option Text := none
  calls : List Call := []
  noted : List Nat := []
  writes : List (Nat × LsmHistorySaveRequest) := []

def noteScheduled (s : Persistence) (generation : Nat) : Persistence :=
  {s with latestScheduled := generation, noted := s.noted ++ [generation]}

/-- A thread enters the function. -/
def beginWrite (s : Persistence) (request : LsmHistorySaveRequest) : Persistence :=
  {s with calls := s.calls ++ [⟨request, .entered⟩]}

/-- The next operation of a call, on the shared state. `failure` is what
`lsm_mkdir_parents` or the file write reports; `none` is a refused step, a call
that waits for the mutex or has returned. -/
def requestWrite (numerals : Numerals) (s : Persistence) (i : Nat) (request : LsmHistorySaveRequest)
    (failure : Option Nat) : Phase → Option (Persistence × Phase)
  | .entered =>
    some (s, if request.generation < s.latestScheduled then .returned 0 false else .scheduledTested)
  | .scheduledTested =>
    some (s, if request.generation ≤ s.latestWritten then .returned 0 false else .tested)
  | .tested =>
    match failure with
    | some code => if code = 0 then none else some (s, .returned code false)
    | none => some (s, .prepared)
  | .prepared =>
    match requestOutput numerals request with
    | none => some (s, .returned rangeFailure false)
    | some output => some (s, .formatted output)
  | .formatted output => if s.mutex = none then some ({s with mutex := some i}, .locked output) else none
  | .locked output => some (s, .loaded output s.latestScheduled)
  | .loaded output latest =>
    some (s, if request.generation < latest ∨ request.generation ≤ s.latestWritten then .unlocking 0
      else .checked output)
  | .checked output =>
    match failure with
    | some code => if code = 0 then none else some (s, .unlocking code)
    | none => some ({s with file := some output, writes := s.writes ++ [(i, request)]}, .replaced)
  | .replaced => some ({s with latestWritten := request.generation}, .stored)
  | .stored => some ({s with mutex := none}, .returned 0 true)
  | .unlocking code => some ({s with mutex := none}, .returned code false)
  | .returned _ _ => none

def advance (numerals : Numerals) (s : Persistence) (i : Nat) (failure : Option Nat) : Option Persistence :=
  match s.calls[i]? with
  | none => none
  | some call =>
    (requestWrite numerals s i call.request failure call.phase).map fun (t, phase) =>
      {t with calls := s.calls.set i {call with phase}}

inductive PersistAction where
  | note (generation : Nat)
  | call (request : LsmHistorySaveRequest)
  | step (i : Nat) (failure : Option Nat)

def coordinator (numerals : Numerals) : Machine Persistence PersistAction where
  step s
    | .note generation => some (noteScheduled s generation)
    | .call request => some (beginWrite s request)
    | .step i failure => advance numerals s i failure

/-! ### What a call knows -/

/-- The generation of the last replacement; zero before the first. -/
def lastGeneration (writes : List (Nat × LsmHistorySaveRequest)) : Nat :=
  (writes.getLast?.map fun w => w.2.generation).getD 0

/-- A newer generation was scheduled, or the coordinator has an equal or newer one. -/
def Stale (s : Persistence) (generation : Nat) : Prop :=
  (∃ newer ∈ s.noted, generation < newer) ∨ generation ≤ s.latestWritten

/-- The call has not replaced the file. -/
def NotWrote (s : Persistence) (i : Nat) : Prop := ∀ w ∈ s.writes, w.1 ≠ i

def Knows (numerals : Numerals) (s : Persistence) (i : Nat) (request : LsmHistorySaveRequest) : Phase → Prop
  | .entered | .scheduledTested | .tested | .prepared => s.mutex ≠ some i ∧ NotWrote s i
  | .formatted output => s.mutex ≠ some i ∧ NotWrote s i ∧ requestOutput numerals request = some output
  | .locked output => s.mutex = some i ∧ NotWrote s i ∧ requestOutput numerals request = some output
  | .loaded output latest =>
    s.mutex = some i ∧ NotWrote s i ∧ requestOutput numerals request = some output ∧
      (latest = 0 ∨ latest ∈ s.noted)
  | .checked output =>
    s.mutex = some i ∧ NotWrote s i ∧ requestOutput numerals request = some output ∧
      s.latestWritten < request.generation
  | .replaced =>
    s.mutex = some i ∧ s.writes.getLast? = some (i, request) ∧
      s.latestWritten = lastGeneration s.writes.dropLast ∧ s.latestWritten < request.generation
  | .stored => s.mutex = some i ∧ (i, request) ∈ s.writes
  | .unlocking failure => s.mutex = some i ∧ NotWrote s i ∧ (failure = 0 → Stale s request.generation)
  | .returned failure written =>
    s.mutex ≠ some i ∧ (if written then failure = 0 ∧ (i, request) ∈ s.writes
      else NotWrote s i ∧ (failure = 0 → Stale s request.generation))

/-- What the other calls may do while a call stands still. -/
structure Undisturbed (j : Nat) (s t : Persistence) : Prop where
  mutex : t.mutex = some j ↔ s.mutex = some j
  writes : ∀ w, w.1 = j → (w ∈ t.writes ↔ w ∈ s.writes)
  written : s.latestWritten ≤ t.latestWritten
  noted : ∀ g ∈ s.noted, g ∈ t.noted
  held : s.mutex = some j → t.writes = s.writes ∧ t.latestWritten = s.latestWritten

section
variable {numerals : Numerals} {s t : Persistence} {i j : Nat} {request : LsmHistorySaveRequest}

theorem Stale.mono {generation : Nat} (h : Stale s generation) (hwritten : s.latestWritten ≤ t.latestWritten)
    (hnoted : ∀ g ∈ s.noted, g ∈ t.noted) : Stale t generation := by
  rcases h with ⟨newer, hmem, hlt⟩ | hle
  · exact Or.inl ⟨newer, hnoted newer hmem, hlt⟩
  · exact Or.inr (Nat.le_trans hle hwritten)

theorem Undisturbed.notWrote (h : Undisturbed j s t) (hnot : NotWrote s j) : NotWrote t j := by
  intro w hw heq
  exact hnot w ((h.writes w heq).mp hw) heq

theorem Knows.undisturbed {phase : Phase} (h : Knows numerals s j request phase) (hu : Undisturbed j s t) :
    Knows numerals t j request phase := by
  have hmutex : s.mutex ≠ some j → t.mutex ≠ some j := fun hne heq => hne (hu.mutex.mp heq)
  have hstale : Stale s request.generation → Stale t request.generation := fun hs => hs.mono hu.written hu.noted
  cases phase with
  | entered => exact ⟨hmutex h.1, hu.notWrote h.2⟩
  | scheduledTested => exact ⟨hmutex h.1, hu.notWrote h.2⟩
  | tested => exact ⟨hmutex h.1, hu.notWrote h.2⟩
  | prepared => exact ⟨hmutex h.1, hu.notWrote h.2⟩
  | formatted output => exact ⟨hmutex h.1, hu.notWrote h.2.1, h.2.2⟩
  | locked output => exact ⟨hu.mutex.mpr h.1, hu.notWrote h.2.1, h.2.2⟩
  | loaded output latest =>
    obtain ⟨hheld, hnot, houtput, hlatest⟩ := h
    exact ⟨hu.mutex.mpr hheld, hu.notWrote hnot, houtput, hlatest.imp_right (hu.noted latest)⟩
  | checked output =>
    obtain ⟨hheld, hnot, houtput, hfresh⟩ := h
    refine ⟨hu.mutex.mpr hheld, hu.notWrote hnot, houtput, ?_⟩
    rw [(hu.held hheld).2]
    exact hfresh
  | replaced =>
    obtain ⟨hheld, hlast, hwritten, hnewer⟩ := h
    refine ⟨hu.mutex.mpr hheld, ?_, ?_, ?_⟩
    · rw [(hu.held hheld).1]
      exact hlast
    · rw [(hu.held hheld).1, (hu.held hheld).2]
      exact hwritten
    · rw [(hu.held hheld).2]
      exact hnewer
  | stored => exact ⟨hu.mutex.mpr h.1, (hu.writes _ rfl).mpr h.2⟩
  | unlocking failure => exact ⟨hu.mutex.mpr h.1, hu.notWrote h.2.1, fun hf => hstale (h.2.2 hf)⟩
  | returned failure written =>
    refine ⟨hmutex h.1, ?_⟩
    cases written with
    | true => exact ⟨h.2.1, (hu.writes _ rfl).mpr h.2.2⟩
    | false => exact ⟨hu.notWrote h.2.1, fun hf => hstale (h.2.2 hf)⟩

end

/-! ### The invariant -/

/-- No call is between its replacement of the file and its store. -/
def Settled (s : Persistence) : Prop := ∀ (i : Nat) (call : Call), s.calls[i]? = some call → call.phase ≠ .replaced

structure Ordered (numerals : Numerals) (initial : Option Text) (s : Persistence) : Prop where
  calls : ∀ (i : Nat) (call : Call), s.calls[i]? = some call → Knows numerals s i call.request call.phase
  owner : ∀ i, s.mutex = some i → i < s.calls.length
  writers : ∀ w ∈ s.writes, ∃ call, s.calls[w.1]? = some call ∧ call.request = w.2
  increasing : (s.writes.map fun w => w.2.generation).Pairwise (· < ·)
  content : (s.writes = [] ∧ s.file = initial) ∨
    ∃ w output, s.writes.getLast? = some w ∧ requestOutput numerals w.2 = some output ∧ s.file = some output
  published : Settled s → s.latestWritten = lastGeneration s.writes
  noted : s.latestScheduled = 0 ∨ s.latestScheduled ∈ s.noted

theorem lastGeneration_concat (writes : List (Nat × LsmHistorySaveRequest)) (w : Nat × LsmHistorySaveRequest) :
    lastGeneration (writes ++ [w]) = w.2.generation := by
  simp [lastGeneration]

/-- In increasing order, nothing is above the last. -/
theorem le_lastGeneration {writes : List (Nat × LsmHistorySaveRequest)}
    (h : (writes.map fun w => w.2.generation).Pairwise (· < ·)) {w : Nat × LsmHistorySaveRequest} (hw : w ∈ writes) :
    w.2.generation ≤ lastGeneration writes := by
  induction writes using List.reverseRecOn with
  | nil => cases hw
  | append_singleton writes last _ =>
    rw [lastGeneration_concat]
    rcases List.mem_append.mp hw with hw | hw
    · rw [List.map_append] at h
      exact Nat.le_of_lt ((List.pairwise_append.mp h).2.2 _ (List.mem_map_of_mem hw) _ (by simp))
    · rw [List.mem_singleton.mp hw]

/-- What one operation of a call does. -/
structure Turn (numerals : Numerals) (s : Persistence) (i : Nat) (request : LsmHistorySaveRequest)
    (t : Persistence) (phase : Phase) : Prop where
  frame : t.calls = s.calls ∧ t.latestScheduled = s.latestScheduled ∧ t.noted = s.noted
  knows : Knows numerals t i request phase
  others : ∀ j, j ≠ i → Undisturbed j s t
  owner : ∀ j, t.mutex = some j → j = i ∨ s.mutex = some j
  writes : t.writes = s.writes ∧ t.file = s.file ∨
    t.writes = s.writes ++ [(i, request)] ∧ lastGeneration s.writes < request.generation ∧
      ∃ output, requestOutput numerals request = some output ∧ t.file = some output
  written : s.latestWritten ≤ t.latestWritten
  stores : t.latestWritten = s.latestWritten ∨ (i, request) ∈ t.writes
  published : phase ≠ .replaced → (∀ (j : Nat) (call : Call), j ≠ i → s.calls[j]? = some call → call.phase ≠ .replaced) →
    t.latestWritten = lastGeneration t.writes

section
variable {numerals : Numerals} {initial : Option Text} {s t : Persistence} {i : Nat} {call : Call}

theorem Undisturbed.refl (j : Nat) (s : Persistence) : Undisturbed j s s :=
  ⟨Iff.rfl, fun _ _ => Iff.rfl, Nat.le_refl _, fun _ hg => hg, fun _ => ⟨rfl, rfl⟩⟩

/-- Nothing of it is about where the calls stand. -/
theorem Undisturbed.withCalls {j : Nat} (h : Undisturbed j s t) (calls : List Call) :
    Undisturbed j s {t with calls} :=
  ⟨h.mutex, h.writes, h.written, h.noted, h.held⟩

theorem Ordered.publishedBut (h : Ordered numerals initial s) (hcall : s.calls[i]? = some call)
    (hphase : call.phase ≠ .replaced)
    (hothers : ∀ (j : Nat) (c : Call), j ≠ i → s.calls[j]? = some c → c.phase ≠ .replaced) :
    s.latestWritten = lastGeneration s.writes := by
  apply h.published
  intro j c hc
  by_cases hj : j = i
  · subst hj
    rw [hcall] at hc
    cases hc
    exact hphase
  · exact hothers j c hj hc

/-- A call that holds the mutex is the only one that can be between its replacement and its store. -/
theorem Ordered.alone (h : Ordered numerals initial s) (hheld : s.mutex = some i) {j : Nat} {c : Call}
    (hj : j ≠ i) (hc : s.calls[j]? = some c) : c.phase ≠ .replaced := by
  intro hphase
  have hknows := h.calls j c hc
  rw [hphase] at hknows
  have hmutex := hknows.1
  rw [hheld] at hmutex
  exact hj (Option.some.inj hmutex).symm

/-- An operation that leaves the shared state alone. -/
theorem Ordered.turn_same (h : Ordered numerals initial s) (hcall : s.calls[i]? = some call)
    (hphase : call.phase ≠ .replaced) {phase : Phase} (hknows : Knows numerals s i call.request phase) :
    Turn numerals s i call.request s phase where
  frame := ⟨rfl, rfl, rfl⟩
  knows := hknows
  others j _ := .refl j s
  owner _ hj := Or.inr hj
  writes := Or.inl ⟨rfl, rfl⟩
  written := Nat.le_refl _
  stores := Or.inl rfl
  published _ hothers := h.publishedBut hcall hphase hothers

theorem Ordered.turn_lock (h : Ordered numerals initial s) (hcall : s.calls[i]? = some call)
    (hphase : call.phase ≠ .replaced) (hfree : s.mutex = none) {phase : Phase}
    (hknows : Knows numerals {s with mutex := some i} i call.request phase) :
    Turn numerals s i call.request {s with mutex := some i} phase where
  frame := ⟨rfl, rfl, rfl⟩
  knows := hknows
  others j hj := by
    refine ⟨?_, fun _ _ => Iff.rfl, Nat.le_refl _, fun _ hg => hg, fun _ => ⟨rfl, rfl⟩⟩
    simp [hfree, Ne.symm hj]
  owner j hmutex := Or.inl (Option.some.inj hmutex).symm
  writes := Or.inl ⟨rfl, rfl⟩
  written := Nat.le_refl _
  stores := Or.inl rfl
  published _ hothers := h.publishedBut hcall hphase hothers

theorem Ordered.turn_unlock (h : Ordered numerals initial s) (hcall : s.calls[i]? = some call)
    (hphase : call.phase ≠ .replaced) (hheld : s.mutex = some i) {phase : Phase}
    (hknows : Knows numerals {s with mutex := none} i call.request phase) :
    Turn numerals s i call.request {s with mutex := none} phase where
  frame := ⟨rfl, rfl, rfl⟩
  knows := hknows
  others j hj := by
    refine ⟨?_, fun _ _ => Iff.rfl, Nat.le_refl _, fun _ hg => hg, fun _ => ⟨rfl, rfl⟩⟩
    simp [hheld, Ne.symm hj]
  owner j hmutex := absurd hmutex (by simp)
  writes := Or.inl ⟨rfl, rfl⟩
  written := Nat.le_refl _
  stores := Or.inl rfl
  published _ hothers := h.publishedBut hcall hphase hothers

/-- The file is replaced: its generation is above every one before. -/
theorem Ordered.turn_replace (h : Ordered numerals initial s) (hcall : s.calls[i]? = some call) {output : Text}
    (hphase : call.phase = .checked output) :
    Turn numerals s i call.request {s with file := some output, writes := s.writes ++ [(i, call.request)]} .replaced := by
  have hknows := h.calls i call hcall
  rw [hphase] at hknows
  obtain ⟨hheld, -, houtput, hfresh⟩ := hknows
  have hwritten : s.latestWritten = lastGeneration s.writes :=
    h.publishedBut hcall (by rw [hphase]; simp) fun j c hj hc => h.alone hheld hj hc
  refine ⟨⟨rfl, rfl, rfl⟩, ⟨hheld, List.getLast?_concat, ?_, hfresh⟩, ?_, fun j hj => Or.inr hj, Or.inr ⟨rfl, ?_, output, houtput, rfl⟩,
    Nat.le_refl _, Or.inl rfl, fun hne => absurd rfl hne⟩
  · show s.latestWritten = lastGeneration (s.writes ++ [(i, call.request)]).dropLast
    rw [List.dropLast_concat]
    exact hwritten
  · intro j hj
    refine ⟨Iff.rfl, ?_, Nat.le_refl _, fun _ hg => hg, ?_⟩
    · intro w hw
      rw [List.mem_append, List.mem_singleton]
      constructor
      · intro hor
        rcases hor with hmem | rfl
        · exact hmem
        · exact absurd hw.symm hj
      · exact Or.inl
    · intro hmutex
      rw [hheld] at hmutex
      exact absurd (Option.some.inj hmutex).symm hj
  · rw [← hwritten]
    exact hfresh

/-- The generation of the replacement is stored. -/
theorem Ordered.turn_store (h : Ordered numerals initial s) (hcall : s.calls[i]? = some call)
    (hphase : call.phase = .replaced) :
    Turn numerals s i call.request {s with latestWritten := call.request.generation} .stored := by
  have hknows := h.calls i call hcall
  rw [hphase] at hknows
  obtain ⟨hheld, hlast, -, hnewer⟩ := hknows
  obtain ⟨front, hfront⟩ := List.getLast?_eq_some_iff.mp hlast
  refine ⟨⟨rfl, rfl, rfl⟩, ⟨hheld, List.mem_of_getLast? hlast⟩, ?_, fun j hj => Or.inr hj, Or.inl ⟨rfl, rfl⟩,
    Nat.le_of_lt hnewer, Or.inr (List.mem_of_getLast? hlast), ?_⟩
  · intro j hj
    refine ⟨Iff.rfl, fun _ _ => Iff.rfl, Nat.le_of_lt hnewer, fun _ hg => hg, ?_⟩
    intro hmutex
    rw [hheld] at hmutex
    exact absurd (Option.some.inj hmutex).symm hj
  · intro _ _
    show call.request.generation = lastGeneration s.writes
    rw [hfront, lastGeneration_concat]

/-- Every operation is one of these turns. -/
theorem Ordered.turn (h : Ordered numerals initial s) (hcall : s.calls[i]? = some call) {failure : Option Nat}
    {phase : Phase} (hstep : requestWrite numerals s i call.request failure call.phase = some (t, phase)) :
    Turn numerals s i call.request t phase := by
  have hknows := h.calls i call hcall
  have hcases : ∀ p, call.phase = p → p ≠ .replaced → call.phase ≠ .replaced := fun p hp hne => hp ▸ hne
  cases hphase : call.phase with
  | entered =>
    have hcall' := hcases _ hphase (by simp)
    rw [hphase] at hknows hstep
    simp only [requestWrite, Option.some.injEq, Prod.mk.injEq] at hstep
    obtain ⟨rfl, rfl⟩ := hstep
    split
    · rename_i hnewer
      refine h.turn_same hcall hcall' ⟨hknows.1, hknows.2, fun _ => Or.inl ⟨_, ?_, hnewer⟩⟩
      exact h.noted.resolve_left (by omega)
    · exact h.turn_same hcall hcall' hknows
  | scheduledTested =>
    have hcall' := hcases _ hphase (by simp)
    rw [hphase] at hknows hstep
    simp only [requestWrite, Option.some.injEq, Prod.mk.injEq] at hstep
    obtain ⟨rfl, rfl⟩ := hstep
    split
    · rename_i hwritten
      exact h.turn_same hcall hcall' ⟨hknows.1, hknows.2, fun _ => Or.inr hwritten⟩
    · exact h.turn_same hcall hcall' hknows
  | tested =>
    have hcall' := hcases _ hphase (by simp)
    rw [hphase] at hknows hstep
    simp only [requestWrite] at hstep
    split at hstep
    · split at hstep
      · cases hstep
      · rename_i hcode
        cases hstep
        exact h.turn_same hcall hcall' ⟨hknows.1, hknows.2, fun hzero => absurd hzero hcode⟩
    · cases hstep
      exact h.turn_same hcall hcall' hknows
  | prepared =>
    have hcall' := hcases _ hphase (by simp)
    rw [hphase] at hknows hstep
    simp only [requestWrite] at hstep
    split at hstep
    · cases hstep
      exact h.turn_same hcall hcall' ⟨hknows.1, hknows.2, fun hzero => absurd hzero (by decide)⟩
    · rename_i output houtput
      cases hstep
      exact h.turn_same hcall hcall' ⟨hknows.1, hknows.2, houtput⟩
  | formatted output =>
    have hcall' := hcases _ hphase (by simp)
    rw [hphase] at hknows hstep
    simp only [requestWrite] at hstep
    split at hstep
    · rename_i hfree
      cases hstep
      exact h.turn_lock hcall hcall' hfree ⟨rfl, hknows.2.1, hknows.2.2⟩
    · cases hstep
  | locked output =>
    have hcall' := hcases _ hphase (by simp)
    rw [hphase] at hknows hstep
    cases hstep
    exact h.turn_same hcall hcall' ⟨hknows.1, hknows.2.1, hknows.2.2, h.noted⟩
  | loaded output latest =>
    have hcall' := hcases _ hphase (by simp)
    rw [hphase] at hknows hstep
    simp only [requestWrite, Option.some.injEq, Prod.mk.injEq] at hstep
    obtain ⟨rfl, rfl⟩ := hstep
    obtain ⟨hheld, hnot, houtput, hlatest⟩ := hknows
    split
    · rename_i hstale
      refine h.turn_same hcall hcall' ⟨hheld, hnot, fun _ => ?_⟩
      rcases hstale with hnewer | hwritten
      · exact Or.inl ⟨latest, hlatest.resolve_left (by omega), hnewer⟩
      · exact Or.inr hwritten
    · rename_i hfresh
      exact h.turn_same hcall hcall' ⟨hheld, hnot, houtput, by omega⟩
  | checked output =>
    rw [hphase] at hstep
    simp only [requestWrite] at hstep
    split at hstep
    · split at hstep
      · cases hstep
      · rename_i hcode
        cases hstep
        rw [hphase] at hknows
        exact h.turn_same hcall (hcases _ hphase (by simp)) ⟨hknows.1, hknows.2.1, fun hzero => absurd hzero hcode⟩
    · cases hstep
      exact h.turn_replace hcall hphase
  | replaced =>
    rw [hphase] at hstep
    cases hstep
    exact h.turn_store hcall hphase
  | stored =>
    have hcall' := hcases _ hphase (by simp)
    rw [hphase] at hknows hstep
    cases hstep
    exact h.turn_unlock hcall hcall' hknows.1 ⟨by simp, rfl, hknows.2⟩
  | unlocking code =>
    have hcall' := hcases _ hphase (by simp)
    rw [hphase] at hknows hstep
    cases hstep
    exact h.turn_unlock hcall hcall' hknows.1 ⟨by simp, hknows.2.1, fun hzero => hknows.2.2 hzero⟩
  | returned code written =>
    rw [hphase] at hstep
    cases hstep

theorem Ordered.advance (h : Ordered numerals initial s) {failure : Option Nat}
    (hstep : History.advance numerals s i failure = some t) : Ordered numerals initial t := by
  unfold History.advance at hstep
  cases hcall : s.calls[i]? with
  | none => simp [hcall] at hstep
  | some call =>
    simp only [hcall, Option.map_eq_some_iff, Prod.exists] at hstep
    obtain ⟨u, phase, hwrite, rfl⟩ := hstep
    have hturn := h.turn hcall hwrite
    obtain ⟨hcalls, hscheduled, hnoted⟩ := hturn.frame
    have hlength : i < s.calls.length := (List.getElem?_eq_some_iff.mp hcall).1
    -- The other calls stand where they stood.
    have hother : ∀ (j : Nat), j ≠ i → (s.calls.set i {call with phase})[j]? = s.calls[j]? := fun j hj =>
      List.getElem?_set_ne (Ne.symm hj)
    have hself : (s.calls.set i {call with phase})[i]? = some {call with phase} := List.getElem?_set_self hlength
    refine ⟨?_, ?_, ?_, ?_, ?_, ?_, ?_⟩
    · intro j c hc
      by_cases hj : j = i
      · subst hj
        have heq : some {call with phase} = some c := hself.symm.trans hc
        cases heq
        exact hturn.knows.undisturbed ((Undisturbed.refl _ _).withCalls _)
      · have hold : s.calls[j]? = some c := (hother j hj).symm.trans hc
        exact (h.calls j c hold).undisturbed ((hturn.others j hj).withCalls _)
    · intro j hj
      show j < (s.calls.set i {call with phase}).length
      rw [List.length_set]
      rcases hturn.owner j hj with rfl | hold
      · exact hlength
      · exact h.owner j hold
    · -- Where a call stands changes, its request does not.
      have hkept : ∀ w ∈ s.writes, ∃ c, (s.calls.set i {call with phase})[w.1]? = some c ∧ c.request = w.2 := by
        intro w hw
        obtain ⟨c, hc, hrequest⟩ := h.writers w hw
        by_cases hi : w.1 = i
        · rw [hi] at hc ⊢
          rw [hcall] at hc
          cases hc
          exact ⟨_, hself, hrequest⟩
        · exact ⟨c, (hother w.1 hi).trans hc, hrequest⟩
      intro w hw
      rcases hturn.writes with ⟨hsame, -⟩ | ⟨hmore, -⟩
      · exact hkept w (hsame ▸ hw)
      · have hw : w ∈ s.writes ++ [(i, call.request)] := hmore ▸ hw
        rcases List.mem_append.mp hw with hw | hw
        · exact hkept w hw
        · rw [List.mem_singleton.mp hw]
          exact ⟨_, hself, rfl⟩
    · show (u.writes.map fun w => w.2.generation).Pairwise (· < ·)
      rcases hturn.writes with ⟨hsame, -⟩ | ⟨hmore, hnewer, -⟩
      · rw [hsame]
        exact h.increasing
      · rw [hmore, List.map_append]
        refine List.pairwise_append.mpr ⟨h.increasing, List.pairwise_singleton _ _, ?_⟩
        intro g hg g' hg'
        obtain ⟨w, hw, rfl⟩ := List.mem_map.mp hg
        have hle := le_lastGeneration h.increasing hw
        simp only [List.map_cons, List.map_nil, List.mem_singleton] at hg'
        omega
    · show (u.writes = [] ∧ u.file = initial) ∨ ∃ w output, u.writes.getLast? = some w ∧ _
      rcases hturn.writes with ⟨hsame, hfile⟩ | ⟨hmore, -, output, houtput, hfile⟩
      · rw [hsame, hfile]
        exact h.content
      · exact Or.inr ⟨_, output, by rw [hmore]; exact List.getLast?_concat, houtput, hfile⟩
    · intro hnone
      apply hturn.published (hnone i _ hself)
      intro j c hj hc
      exact hnone j c ((hother j hj).trans hc)
    · show u.latestScheduled = 0 ∨ u.latestScheduled ∈ u.noted
      rw [hscheduled, hnoted]
      exact h.noted

theorem Ordered.note (h : Ordered numerals initial s) (generation : Nat) :
    Ordered numerals initial (noteScheduled s generation) := by
  have hundisturbed : ∀ j, Undisturbed j s (noteScheduled s generation) := fun j =>
    ⟨Iff.rfl, fun _ _ => Iff.rfl, Nat.le_refl _, fun g hg => List.mem_append_left _ hg, fun _ => ⟨rfl, rfl⟩⟩
  refine ⟨?_, h.owner, h.writers, h.increasing, h.content, h.published, Or.inr (by simp [noteScheduled])⟩
  intro i call hcall
  exact (h.calls i call hcall).undisturbed (hundisturbed i)

theorem Ordered.begin (h : Ordered numerals initial s) (request : LsmHistorySaveRequest) :
    Ordered numerals initial (beginWrite s request) := by
  have hlength : (beginWrite s request).calls.length = s.calls.length + 1 := by simp [beginWrite]
  have hcalls : ∀ (i : Nat) (c : Call), (beginWrite s request).calls[i]? = some c →
      s.calls[i]? = some c ∨ i = s.calls.length ∧ c = ⟨request, .entered⟩ := by
    intro i c hc
    simp only [beginWrite] at hc
    by_cases hi : i < s.calls.length
    · rw [List.getElem?_append_left hi] at hc
      exact Or.inl hc
    · rw [List.getElem?_append_right (by omega)] at hc
      have hzero : i - s.calls.length = 0 := by
        have := (List.getElem?_eq_some_iff.mp hc).1
        simp only [List.length_cons, List.length_nil] at this
        omega
      rw [hzero] at hc
      cases hc
      exact Or.inr ⟨by omega, rfl⟩
  refine ⟨?_, ?_, ?_, h.increasing, h.content, ?_, h.noted⟩
  · intro i c hc
    rcases hcalls i c hc with hold | ⟨rfl, rfl⟩
    · exact (h.calls i c hold).undisturbed ((Undisturbed.refl _ _).withCalls _)
    · refine ⟨?_, ?_⟩
      · intro hheld
        exact absurd (h.owner _ hheld) (Nat.lt_irrefl _)
      · intro w hw heq
        obtain ⟨c, hc, -⟩ := h.writers w hw
        have := (List.getElem?_eq_some_iff.mp hc).1
        omega
  · intro i hi
    have := h.owner i hi
    omega
  · intro w hw
    obtain ⟨c, hc, hrequest⟩ := h.writers w hw
    refine ⟨c, ?_, hrequest⟩
    simp only [beginWrite]
    rw [List.getElem?_append_left (List.getElem?_eq_some_iff.mp hc).1]
    exact hc
  · intro hnone
    apply h.published
    intro i c hc
    apply hnone i c
    simp only [beginWrite]
    rw [List.getElem?_append_left (List.getElem?_eq_some_iff.mp hc).1]
    exact hc

theorem Ordered.init (numerals : Numerals) (initial : Option Text) : Ordered numerals initial {file := initial} where
  calls i call hcall := absurd hcall (by simp)
  owner i hi := absurd hi (by simp)
  writers w hw := absurd hw List.not_mem_nil
  increasing := List.Pairwise.nil
  content := Or.inl ⟨rfl, rfl⟩
  published _ := rfl
  noted := Or.inl rfl

theorem Ordered.step (h : Ordered numerals initial s) {action : PersistAction}
    (hstep : (coordinator numerals).step s action = some t) : Ordered numerals initial t := by
  cases action with
  | note generation =>
    cases hstep
    exact h.note generation
  | call request =>
    cases hstep
    exact h.begin request
  | step i failure => exact h.advance hstep

/-- What a call changes, it has replaced the file for. -/
theorem Ordered.changes (h : Ordered numerals initial s) {failure : Option Nat}
    (hstep : History.advance numerals s i failure = some t)
    (hchange : t.file ≠ s.file ∨ t.latestWritten ≠ s.latestWritten) : ∃ w ∈ t.writes, w.1 = i := by
  unfold History.advance at hstep
  cases hcall : s.calls[i]? with
  | none => simp [hcall] at hstep
  | some call =>
    simp only [hcall, Option.map_eq_some_iff, Prod.exists] at hstep
    obtain ⟨u, phase, hwrite, rfl⟩ := hstep
    have hturn := h.turn hcall hwrite
    rcases hchange with hfile | hwritten
    · rcases hturn.writes with ⟨-, hsame⟩ | ⟨hmore, -⟩
      · exact absurd hsame hfile
      · exact ⟨(i, call.request), by rw [show u.writes = _ from hmore]; simp, rfl⟩
    · rcases hturn.stores with hsame | hmem
      · exact absurd hsame hwritten
      · exact ⟨_, hmem, rfl⟩

theorem lastGeneration_mem (writes : List (Nat × LsmHistorySaveRequest)) :
    lastGeneration writes = 0 ∨ ∃ w ∈ writes, w.2.generation = lastGeneration writes := by
  unfold lastGeneration
  cases hlast : writes.getLast? with
  | none => exact Or.inl rfl
  | some w => exact Or.inr ⟨w, List.mem_of_getLast? hlast, rfl⟩

/-- The stored generation is zero or that of a replacement. -/
theorem Ordered.latestWritten_mem (h : Ordered numerals initial s) :
    s.latestWritten = 0 ∨ ∃ w ∈ s.writes, w.2.generation = s.latestWritten := by
  by_cases hnone : Settled s
  · rw [h.published hnone]
    exact lastGeneration_mem s.writes
  · simp only [Settled, not_forall, not_not] at hnone
    obtain ⟨i, call, hcall, hphase⟩ := hnone
    have hknows := h.calls i call hcall
    rw [hphase] at hknows
    rw [hknows.2.2.1]
    rcases lastGeneration_mem s.writes.dropLast with hzero | ⟨w, hw, hgeneration⟩
    · exact Or.inl hzero
    · exact Or.inr ⟨w, (List.dropLast_sublist _).subset hw, hgeneration⟩

/-- The requests of the calls, in the order they were made. -/
def requests (s : Persistence) : List LsmHistorySaveRequest := s.calls.map Call.request

theorem mem_requests {call : Call} (hcall : s.calls[i]? = some call) : call.request ∈ requests s :=
  List.mem_map_of_mem (List.mem_of_getElem? hcall)

theorem advance_requests {failure : Option Nat} (hstep : History.advance numerals s i failure = some t) :
    requests t = requests s := by
  unfold History.advance at hstep
  cases hcall : s.calls[i]? with
  | none => simp [hcall] at hstep
  | some call =>
    simp only [hcall, Option.map_eq_some_iff, Prod.exists] at hstep
    obtain ⟨u, phase, -, rfl⟩ := hstep
    obtain ⟨hlength, -⟩ := List.getElem?_eq_some_iff.mp hcall
    show (s.calls.set i {call with phase}).map Call.request = s.calls.map Call.request
    rw [List.map_set]
    apply List.ext_getElem?
    intro j
    by_cases hj : j = i
    · subst hj
      rw [List.getElem?_set_self (by rwa [List.length_map]), List.getElem?_map, hcall]
      rfl
    · rw [List.getElem?_set_ne (Ne.symm hj)]

@[simp] theorem requests_noteScheduled (s : Persistence) (generation : Nat) :
    requests (noteScheduled s generation) = requests s := rfl

@[simp] theorem requests_beginWrite (s : Persistence) (request : LsmHistorySaveRequest) :
    requests (beginWrite s request) = requests s ++ [request] := by
  simp [requests, beginWrite]

/-- When the newest request of all has been stored, or its call has come back
with it written, the file is that of a request of its generation, for good. -/
theorem Ordered.newest (h : Ordered numerals initial s) {generation : Nat} (hpositive : 0 < generation)
    (hmax : ∀ r ∈ requests s, r.generation ≤ generation)
    (hreached : generation ≤ s.latestWritten ∨ ∃ (i : Nat) (call : Call) (failure : Nat), s.calls[i]? = some call ∧
      call.phase = .returned failure true ∧ call.request.generation = generation) :
    s.latestWritten = generation ∧ Settled s ∧
      ∃ r ∈ requests s, r.generation = generation ∧ s.file = requestOutput numerals r := by
  have hwrites : ∀ w ∈ s.writes, w.2.generation ≤ generation := by
    intro w hw
    obtain ⟨c, hc, hrequest⟩ := h.writers w hw
    rw [← hrequest]
    exact hmax c.request (mem_requests hc)
  -- A call about to store would have to be newer than the newest.
  have hsettled : Settled s := by
    intro j c hc hphase
    have hknows := h.calls j c hc
    rw [hphase] at hknows
    obtain ⟨-, hlast, -, hnewer⟩ := hknows
    have hle := hmax c.request (mem_requests hc)
    rcases hreached with hstored | ⟨i, call, failure, hcall, hreturned, hgeneration⟩
    · omega
    · have hback := h.calls i call hcall
      rw [hreturned] at hback
      have hmem : (i, call.request) ∈ s.writes := hback.2.2
      obtain ⟨front, hfront⟩ := List.getLast?_eq_some_iff.mp hlast
      rw [hfront] at hmem
      rcases List.mem_append.mp hmem with hmem | hmem
      · have hincreasing := h.increasing
        rw [hfront, List.map_append] at hincreasing
        have hlt := (List.pairwise_append.mp hincreasing).2.2 _ (List.mem_map_of_mem hmem) c.request.generation (by simp)
        simp only at hlt
        omega
      · have hsame : i = j := (Prod.mk.inj (List.mem_singleton.mp hmem)).1
        rw [hsame, hc] at hcall
        cases hcall
        rw [hphase] at hreturned
        cases hreturned
  have hpublished := h.published hsettled
  have hmember : ∃ w ∈ s.writes, w.2.generation = generation := by
    rcases hreached with hstored | ⟨i, call, failure, hcall, hreturned, hgeneration⟩
    · rcases h.latestWritten_mem with hzero | ⟨w, hw, heq⟩
      · omega
      · have := hwrites w hw
        exact ⟨w, hw, by omega⟩
    · have hback := h.calls i call hcall
      rw [hreturned] at hback
      exact ⟨_, hback.2.2, hgeneration⟩
  obtain ⟨w, hw, hgeneration⟩ := hmember
  have hge := le_lastGeneration h.increasing hw
  rcases h.content with ⟨hnone, -⟩ | ⟨last, output, hlast, houtput, hfile⟩
  · rw [hnone] at hw
    cases hw
  · have hlastGeneration : lastGeneration s.writes = last.2.generation := by rw [lastGeneration, hlast]; rfl
    have hle := hwrites last (List.mem_of_getLast? hlast)
    obtain ⟨c, hc, hrequest⟩ := h.writers last (List.mem_of_getLast? hlast)
    refine ⟨by omega, hsettled, c.request, mem_requests hc, ?_, ?_⟩
    · rw [hrequest]
      omega
    · rw [hrequest]
      exact hfile.trans houtput.symm

/-- After that no call can change the file or the stored generation. -/
theorem Ordered.advance_newest (h : Ordered numerals initial s) {generation : Nat} (hpositive : 0 < generation)
    (hmax : ∀ r ∈ requests s, r.generation ≤ generation) (hstored : s.latestWritten = generation)
    {failure : Option Nat} (hstep : History.advance numerals s i failure = some t) :
    t.file = s.file ∧ t.latestWritten = generation := by
  have ht := h.advance hstep
  have hmax' : ∀ r ∈ requests t, r.generation ≤ generation := by
    rw [advance_requests hstep]
    exact hmax
  obtain ⟨-, hsettled, -⟩ := h.newest hpositive hmax (Or.inl (Nat.le_of_eq hstored.symm))
  have hpublished := h.published hsettled
  unfold History.advance at hstep
  cases hcall : s.calls[i]? with
  | none => simp [hcall] at hstep
  | some call =>
    simp only [hcall, Option.map_eq_some_iff, Prod.exists] at hstep
    obtain ⟨u, phase, hwrite, rfl⟩ := hstep
    have hturn := h.turn hcall hwrite
    have hle := hmax call.request (mem_requests hcall)
    refine ⟨?_, ?_⟩
    · rcases hturn.writes with ⟨-, hfile⟩ | ⟨-, hnewer, -⟩
      · exact hfile
      · omega
    · exact (ht.newest hpositive hmax' (Or.inl (hstored ▸ hturn.written))).1

end

/-! ### Every schedule -/

theorem Ordered.run (numerals : Numerals) (initial : Option Text) {s : Persistence} {actions : List PersistAction}
    (hrun : (coordinator numerals).run {file := initial} actions = some s) : Ordered numerals initial s :=
  (coordinator numerals).run_preserves (Ordered numerals initial) (fun _ _ _ h hstep => h.step hstep)
    (Ordered.init numerals initial) hrun

/-- **Save ordering.** In every schedule: the generations that reach the file
increase; the file is that of the stored generation, except between a call's
replacement and its store, where it is that call's; only a call that replaces
the file changes the file or the stored generation, and a failed write changes
neither; a call reports `written`
exactly when it has replaced the file, and never with a failure; and a call that
returns zero without writing has been overtaken. -/
theorem save_ordering (numerals : Numerals) (initial : Option Text) (actions : List PersistAction)
    {s : Persistence} (hrun : (coordinator numerals).run {file := initial} actions = some s) :
    (s.writes.map fun w => w.2.generation).Pairwise (· < ·) ∧
    (s.writes = [] → s.file = initial) ∧
    (Settled s → s.latestWritten ≠ 0 →
      ∃ w ∈ s.writes, w.2.generation = s.latestWritten ∧ s.file = requestOutput numerals w.2) ∧
    (∀ (i : Nat) (call : Call), s.calls[i]? = some call → call.phase = .replaced →
      s.latestWritten < call.request.generation ∧ s.file = requestOutput numerals call.request) ∧
    (∀ i failure t, advance numerals s i failure = some t →
      t.file ≠ s.file ∨ t.latestWritten ≠ s.latestWritten → ∃ w ∈ t.writes, w.1 = i) ∧
    (∀ (i : Nat) (call : Call) (output : Text) (code : Nat) (t : Persistence), s.calls[i]? = some call →
      call.phase = .checked output → advance numerals s i (some code) = some t →
      t.file = s.file ∧ t.latestWritten = s.latestWritten) ∧
    ∀ (i : Nat) (call : Call) (failure : Nat) (written : Bool), s.calls[i]? = some call → call.phase = .returned failure written →
      (written = true ↔ ∃ w ∈ s.writes, w.1 = i) ∧ (failure ≠ 0 → written = false) ∧
      (failure = 0 → written = false → 0 < call.request.generation →
        (∃ newer ∈ s.noted, call.request.generation < newer) ∨
        ∃ w ∈ s.writes, call.request.generation ≤ w.2.generation) := by
  have h := Ordered.run numerals initial hrun
  refine ⟨h.increasing, ?_, ?_, ?_, fun i failure t => h.changes, ?_, ?_⟩
  · intro hnone
    rcases h.content with ⟨-, hfile⟩ | ⟨w, output, hlast, -⟩
    · exact hfile
    · rw [hnone] at hlast
      cases hlast
  · intro hsettled hwritten
    have hlast := h.published hsettled
    rcases h.content with ⟨hnone, -⟩ | ⟨w, output, hw, houtput, hfile⟩
    · rw [hlast, hnone] at hwritten
      exact absurd rfl hwritten
    · refine ⟨w, List.mem_of_getLast? hw, ?_, hfile.trans houtput.symm⟩
      rw [hlast, lastGeneration, hw]
      rfl
  · intro i call hcall hphase
    have hknows := h.calls i call hcall
    rw [hphase] at hknows
    obtain ⟨-, hlast, -, hnewer⟩ := hknows
    refine ⟨hnewer, ?_⟩
    rcases h.content with ⟨hnone, -⟩ | ⟨w, output, hw, houtput, hfile⟩
    · rw [hnone] at hlast
      cases hlast
    · rw [hlast] at hw
      cases hw
      exact hfile.trans houtput.symm
  · intro i call output code t hcall hphase hstep
    simp only [advance, hcall, hphase, requestWrite] at hstep
    split at hstep
    · cases hstep
    · cases hstep
      exact ⟨rfl, rfl⟩
  · intro i call failure written hcall hphase
    have hknows := h.calls i call hcall
    rw [hphase] at hknows
    cases written with
    | true =>
      obtain ⟨-, hzero, hmem⟩ := hknows
      exact ⟨⟨fun _ => ⟨_, hmem, rfl⟩, fun _ => rfl⟩, fun hne => absurd hzero hne, fun _ hfalse => absurd hfalse (by simp)⟩
    | false =>
      obtain ⟨-, hnot, hstale⟩ := hknows
      refine ⟨⟨fun hfalse => absurd hfalse (by simp), ?_⟩, fun _ => rfl, ?_⟩
      · intro hwrote
        obtain ⟨w, hw, heq⟩ := hwrote
        exact absurd heq (hnot w hw)
      · intro hzero _ hpositive
        rcases hstale hzero with hnewer | hle
        · exact Or.inl hnewer
        · right
          rcases h.latestWritten_mem with hnone | ⟨w, hw, hgeneration⟩
          · omega
          · exact ⟨w, hw, by omega⟩

/-- A request for a table with one application, or none. -/
def applicationRequest (generation : Nat) (names : List Text) : LsmHistorySaveRequest :=
  ⟨names.map fun name => persistEntry {key := name, name, user := [], identity := name, firstSeen := 1, lastSeen := 1},
    generation⟩

/-- A request is scheduled, and its call takes a number of operations that all succeed. -/
def undisturbedWrite (i steps : Nat) (request : LsmHistorySaveRequest) : List PersistAction :=
  .note request.generation :: .call request :: List.replicate steps (.step i none)

theorem save_ordering_twoWrites :
    ∃ s, (coordinator .documented).run {} (undisturbedWrite 0 10 (applicationRequest 1 []) ++
        undisturbedWrite 1 10 (applicationRequest 2 [ascii "a"])) = some s ∧
      s.writes.map (fun w => w.2.generation) = [1, 2] ∧
      (s.writes.map fun w => w.2.generation).Pairwise (· < ·) := by
  have hwrites : ((coordinator .documented).run {} (undisturbedWrite 0 10 (applicationRequest 1 []) ++
      undisturbedWrite 1 10 (applicationRequest 2 [ascii "a"]))).map
      (fun s => s.writes.map fun w => w.2.generation) = some [1, 2] := by decide +kernel
  obtain ⟨s, hrun, hgenerations⟩ := Option.map_eq_some_iff.mp hwrites
  exact ⟨s, hrun, hgenerations, (save_ordering .documented none _ hrun).1⟩

/-- Between the replacement and the store of the second request, the stored
generation still names the first; and a request of generation zero is never
written, with nothing newer scheduled or written. -/
theorem unsettled_file :
    (∃ s, (coordinator .documented).run {} (undisturbedWrite 0 10 (applicationRequest 1 []) ++
        undisturbedWrite 1 8 (applicationRequest 2 [ascii "a"])) = some s ∧ s.latestWritten = 1 ∧
      ∀ w ∈ s.writes, w.2.generation = s.latestWritten → s.file ≠ requestOutput .documented w.2) ∧
    ∃ s, (coordinator .documented).run {} (undisturbedWrite 0 2 (applicationRequest 0 [])) = some s ∧
      s.calls.map Call.phase = [.returned 0 false] ∧ s.noted = [0] ∧ s.writes = [] := by
  have hnewer : ((coordinator .documented).run {} (undisturbedWrite 0 10 (applicationRequest 1 []) ++
      undisturbedWrite 1 8 (applicationRequest 2 [ascii "a"]))).map (fun s => decide (s.latestWritten = 1 ∧
        ∀ w ∈ s.writes, w.2.generation = s.latestWritten → s.file ≠ requestOutput .documented w.2)) = some true := by
    decide +kernel
  have hzero : ((coordinator .documented).run {} (undisturbedWrite 0 2 (applicationRequest 0 []))).map (fun s =>
      decide (s.calls.map Call.phase = [.returned 0 false] ∧ s.noted = [0] ∧ s.writes = [])) = some true := by
    decide
  obtain ⟨s, hrun, hfile⟩ := Option.map_eq_some_iff.mp hnewer
  obtain ⟨t, hrun', hskipped⟩ := Option.map_eq_some_iff.mp hzero
  exact ⟨⟨s, hrun, of_decide_eq_true hfile⟩, t, hrun', of_decide_eq_true hskipped⟩

end SystemMonitor.History
