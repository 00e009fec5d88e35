import SystemMonitor.History.RoundTrip
import SystemMonitor.History.Session

/-! Resetting the history for good.

A reset empties the tables and saves. It is not final while the load is pending,
for the merge then adds what the file held; nor while a write of an earlier
request is on its way, for nothing is scheduled past it and it may still replace
the file. Otherwise (`reset_final`) everything after it, in memory and in the
file, is what the snapshots after it give from empty tables. -/
namespace SystemMonitor.History
open Lib

/-! ### Tables without flags -/

/-- The tables, their count and the clock; all that accounting depends on. -/
def tables (s : LsmHistoryState) : LsmHistoryState :=
  {s with mutationGeneration := 0, dirty := false, loadPending := false, savePending := false, saveAgain := false}

section
variable (lib : Arithmetic)

theorem ingestProcess_tables (generation : Nat) (elapsed : ℚ) (nowEpoch : Int) (s : LsmHistoryState)
    (reading : Reading) : ingestProcess lib generation elapsed nowEpoch (tables s) reading =
      tables (ingestProcess lib generation elapsed nowEpoch s reading) := by
  simp only [ingestProcess, historyEntryGet, tables]
  cases s.appHistory.find? (historyKey reading.process) with
  | none => rfl
  | some entry => rfl

theorem foldl_ingestProcess_tables (generation : Nat) (elapsed : ℚ) (nowEpoch : Int) (readings : List Reading)
    (s : LsmHistoryState) : readings.foldl (ingestProcess lib generation elapsed nowEpoch) (tables s) =
      tables (readings.foldl (ingestProcess lib generation elapsed nowEpoch) s) := by
  induction readings generalizing s with
  | nil => rfl
  | cons reading rest ih =>
    rw [List.foldl_cons, List.foldl_cons, ingestProcess_tables]
    exact ih _

theorem ingestAccount_tables (s : LsmHistoryState) (snapshot : Snapshot) :
    ingestAccount lib (tables s) snapshot = tables (ingestAccount lib s snapshot) := by
  have hfold := foldl_ingestProcess_tables lib (nextGeneration s.generation) (ingestElapsed s snapshot.nowMono)
    snapshot.nowEpoch snapshot.processes
    {s with generation := nextGeneration s.generation, lastSample := snapshot.nowMono}
  simp only [ingestAccount]
  exact congrArg (fun t : LsmHistoryState => {t with
    appHistorySamples := t.appHistorySamples.filter fun x => !staleSample (nextGeneration s.generation) x}) hfold

theorem removeOldestLoop_tables (walk : Walk LsmHistoryEntry) (protectedGeneration fuel : Nat) (s : LsmHistoryState) :
    (removeOldestLoop walk protectedGeneration fuel (tables s)).1 =
      tables (removeOldestLoop walk protectedGeneration fuel s).1 := by
  induction fuel generalizing s with
  | zero => rfl
  | succ fuel ih =>
    have hkey : historyOldestKey walk (tables s) protectedGeneration = historyOldestKey walk s protectedGeneration := rfl
    have hcount : (tables s).entryCount = s.entryCount := rfl
    simp only [removeOldestLoop, historyRemoveOldest, hkey, hcount]
    split
    · cases historyOldestKey walk s protectedGeneration with
      | none => rfl
      | some key =>
        exact ih {s with appHistory := s.appHistory.erase [key], entryCount := s.entryCount - 1}
    · rfl

theorem historyTrimToLimit_tables (walk : Walk LsmHistoryEntry) (allocated : Bool) (s : LsmHistoryState)
    (protectedGeneration : Nat) : (historyTrimToLimit walk allocated (tables s) protectedGeneration).1 =
      tables (historyTrimToLimit walk allocated s protectedGeneration).1 := by
  have hcount : (tables s).entryCount = s.entryCount := rfl
  simp only [historyTrimToLimit, hcount]
  split
  · rfl
  · cases allocated with
    | true => rfl
    | false => exact removeOldestLoop_tables walk protectedGeneration s.entryCount s

/-- A snapshot does the same to the tables whatever the flags are. -/
theorem lsmAppHistoryIngest_tables {s t : LsmHistoryState} (h : tables s = tables t) (snapshot : Snapshot) :
    tables (lsmAppHistoryIngest lib s snapshot) = tables (lsmAppHistoryIngest lib t snapshot) := by
  have hmain : ∀ u : LsmHistoryState, tables (lsmAppHistoryIngest lib u snapshot) =
      (historyTrimToLimit snapshot.walk snapshot.allocated (ingestAccount lib (tables u) snapshot)
        (ingestAccount lib (tables u) snapshot).generation).1 := by
    intro u
    rw [ingestAccount_tables]
    show _ = (historyTrimToLimit snapshot.walk snapshot.allocated (tables (ingestAccount lib u snapshot))
      (ingestAccount lib u snapshot).generation).1
    rw [historyTrimToLimit_tables]
    simp only [lsmAppHistoryIngest]
    split <;> rfl
  rw [hmain, hmain, h]

theorem historyClear_tables {s t : LsmHistoryState} (h : tables s = tables t) :
    tables (historyClear s) = tables (historyClear t) := by
  have hmain : ∀ u : LsmHistoryState, tables (historyClear u) =
      {tables u with appHistory := .empty, appHistorySamples := .empty, entryCount := 0} := fun _ => rfl
  rw [hmain, hmain, h]

end

/-! ### Calls that can no longer write -/

/-- Past the replacement of the file, or past any chance of it. -/
def Phase.spent : Phase → Bool
  | .replaced | .stored | .unlocking _ | .returned _ _ => true
  | _ => false

theorem requestWrite_spent {numerals : Numerals} {s t : Persistence} {i : Nat} {request : LsmHistorySaveRequest}
    {failure : Option Nat} {phase next : Phase} (hspent : phase.spent = true)
    (h : requestWrite numerals s i request failure phase = some (t, next)) :
    next.spent = true ∧ t.writes = s.writes ∧ t.file = s.file := by
  cases phase with
  | replaced =>
    cases h
    exact ⟨rfl, rfl, rfl⟩
  | stored =>
    cases h
    exact ⟨rfl, rfl, rfl⟩
  | unlocking code =>
    cases h
    exact ⟨rfl, rfl, rfl⟩
  | returned code written => cases h
  | entered => cases hspent
  | scheduledTested => cases hspent
  | tested => cases hspent
  | prepared => cases hspent
  | formatted output => cases hspent
  | locked output => cases hspent
  | loaded output latest => cases hspent
  | checked output => cases hspent

/-! ### After a reset -/

/-- What a session does to the retained history. -/
def opsOf (_ : Session) : SessionAction → List HistoryOp
  | .ingest snapshot => [.ingest snapshot]
  | .reset _ => [.reset]
  | _ => []

/-- A request for the table that some of the operations give. -/
def Made (lib : Arithmetic) (fresh : LsmHistoryState) (ops : List HistoryOp) (r : LsmHistorySaveRequest) : Prop :=
  ∃ front, front <+: ops ∧ ∃ h walk, (retained lib).run fresh front = some h ∧
    r.entries = (historySaveRequestCreate walk h).entries

theorem Made.append {lib : Arithmetic} {fresh : LsmHistoryState} {ops : List HistoryOp} {r : LsmHistorySaveRequest}
    (h : Made lib fresh ops r) (more : List HistoryOp) : Made lib fresh (ops ++ more) r := by
  obtain ⟨front, hfront, hrest⟩ := h
  exact ⟨front, hfront.trans (List.prefix_append ..), hrest⟩

/-- Since a reset in state `origin`, with what the operations since then give from empty tables. -/
structure AfterReset (lib : Arithmetic) (numerals : Numerals) (origin : Persistence) (fresh : LsmHistoryState)
    (ops : List HistoryOp) (s : Session) : Prop where
  ordered : ∃ initial, Ordered numerals initial s.persistence
  loaded : s.main ≠ .closed → s.load = .completed
  unpending : s.history.loadPending = false
  since : origin.calls.length ≤ s.persistence.calls.length
  derived : s.main ≠ .closed → ∃ h, (retained lib).run fresh ops = some h ∧ tables h = tables s.history
  made : ∀ (i : Nat) (call : Call), origin.calls.length ≤ i → s.persistence.calls[i]? = some call →
    Made lib fresh ops call.request
  old : ∀ (i : Nat) (call : Call), i < origin.calls.length → s.persistence.calls[i]? = some call →
    call.phase.spent = true
  file : s.persistence.writes = origin.writes ∧ s.persistence.file = origin.file ∨
    ∃ r, Made lib fresh ops r ∧ s.persistence.file = requestOutput numerals r

section
variable {lib : Arithmetic} {numerals : Numerals} {origin : Persistence} {fresh : LsmHistoryState}
  {ops : List HistoryOp} {s t : Session}

/-- A callback that leaves the tables alone. -/
theorem AfterReset.setFlags (h : AfterReset lib numerals origin fresh ops s) (history : LsmHistoryState)
    (htables : tables history = tables s.history) (hpending : history.loadPending = false) (worker : Option Nat) :
    AfterReset lib numerals origin fresh ops {s with history, worker} := by
  refine ⟨h.ordered, h.loaded, hpending, h.since, ?_, h.made, h.old, h.file⟩
  intro hopen
  obtain ⟨u, hrun, hu⟩ := h.derived hopen
  exact ⟨u, hrun, hu.trans htables.symm⟩

/-- A callback that does to the tables what an operation does. -/
theorem AfterReset.setTables (h : AfterReset lib numerals origin fresh ops s) (hopen : s.main ≠ .closed)
    (history : LsmHistoryState) (hpending : history.loadPending = false) {op : HistoryOp}
    (hop : ∀ u, tables u = tables s.history → ∃ v, (retained lib).step u op = some v ∧ tables v = tables history) :
    AfterReset lib numerals origin fresh (ops ++ [op]) {s with history} := by
  obtain ⟨u, hrun, hu⟩ := h.derived hopen
  obtain ⟨v, hstep, hv⟩ := hop u hu
  refine ⟨h.ordered, h.loaded, hpending, h.since, fun _ => ⟨v, ?_, hv⟩, ?_, h.old, ?_⟩
  · rw [Machine.run_append, hrun]
    simp [Machine.run, hstep]
  · intro i call hi hcall
    exact (h.made i call hi hcall).append [op]
  · rcases h.file with hsame | ⟨r, hmade, hfile⟩
    · exact Or.inl hsame
    · exact Or.inr ⟨r, hmade.append [op], hfile⟩

/-- A save scheduled now is of the tables as they are now. -/
theorem AfterReset.schedule (h : AfterReset lib numerals origin fresh ops s) (hopen : s.main ≠ .closed)
    (walk : Walk LsmHistoryEntry) (history : LsmHistoryState) (htables : tables history = tables s.history)
    (hpending : history.loadPending = false) (worker : Option Nat) (main : MainThread) :
    AfterReset lib numerals origin fresh ops
      {s with history, persistence := History.schedule walk s, worker, main} := by
  obtain ⟨u, hrun, hu⟩ := h.derived hopen
  obtain ⟨initial, hordered⟩ := h.ordered
  have hmade : Made lib fresh ops (historySaveRequestCreate walk s.history) := by
    refine ⟨ops, List.prefix_refl ops, u, walk, hrun, ?_⟩
    have hentries : ∀ v : LsmHistoryState,
        (historySaveRequestCreate walk v).entries = (historySaveRequestCreate walk (tables v)).entries := fun _ => rfl
    rw [hentries s.history, hentries u, hu]
  have hcalls : (History.schedule walk s).calls = s.persistence.calls ++
      [⟨historySaveRequestCreate walk s.history, .entered⟩] := rfl
  have hsince := h.since
  refine ⟨⟨initial, (hordered.note _).begin _⟩, fun _ => h.loaded hopen, hpending, ?_,
    fun _ => ⟨u, hrun, hu.trans htables.symm⟩, ?_, ?_, h.file⟩
  · show _ ≤ (History.schedule walk s).calls.length
    rw [hcalls, List.length_append]
    omega
  · intro i call hi hcall
    rw [hcalls] at hcall
    by_cases hlt : i < s.persistence.calls.length
    · rw [List.getElem?_append_left hlt] at hcall
      exact h.made i call hi hcall
    · rw [List.getElem?_append_right (by omega)] at hcall
      rw [List.mem_singleton.mp (List.mem_of_getElem? hcall)]
      exact hmade
  · intro i call hi hcall
    rw [hcalls, List.getElem?_append_left (by omega)] at hcall
    exact h.old i call hi hcall

theorem AfterReset.save (h : AfterReset lib numerals origin fresh ops s) (hopen : s.main ≠ .closed) (save : SaveRun) :
    AfterReset lib numerals origin fresh ops (lsmHistorySave s save) := by
  rcases lsmHistorySave_cases s save with hsame | hagain | ⟨-, hloaded, -, hscheduled⟩
  · rw [hsame]
    exact h
  · rw [hagain]
    exact h.setFlags {s.history with saveAgain := true} rfl h.unpending s.worker
  · rw [hscheduled]
    exact h.schedule hopen save.walk {s.history with savePending := true} rfl hloaded _ s.main

theorem AfterReset.saveIfAgain (h : AfterReset lib numerals origin fresh ops s) (hopen : s.main ≠ .closed)
    (save : SaveRun) : AfterReset lib numerals origin fresh ops (saveIfAgain s save) := by
  unfold History.saveIfAgain
  split
  · exact (h.setFlags {s.history with saveAgain := false} rfl h.unpending s.worker).save hopen save
  · exact h

theorem AfterReset.close (h : AfterReset lib numerals origin fresh ops s) :
    AfterReset lib numerals origin fresh ops (historyClose s) :=
  ⟨h.ordered, fun hopen => absurd rfl hopen, rfl, h.since, fun hopen => absurd rfl hopen, h.made, h.old, h.file⟩

/-- One operation of a write call: only a call made since the reset can replace the file. -/
theorem AfterReset.write (h : AfterReset lib numerals origin fresh ops s) {i : Nat} {failure : Option Nat}
    {persistence : Persistence} (hadvance : advance numerals s.persistence i failure = some persistence) :
    AfterReset lib numerals origin fresh ops {s with persistence} := by
  obtain ⟨initial, hordered⟩ := h.ordered
  have hordered' := hordered.advance hadvance
  unfold advance at hadvance
  cases hcall : s.persistence.calls[i]? with
  | none => simp [hcall] at hadvance
  | some call =>
    simp only [hcall, Option.map_eq_some_iff, Prod.exists] at hadvance
    obtain ⟨u, phase, hwrite, rfl⟩ := hadvance
    have hturn := hordered.turn hcall hwrite
    have hlength : i < s.persistence.calls.length := (List.getElem?_eq_some_iff.mp hcall).1
    have hget : ∀ (j : Nat) (c : Call), (s.persistence.calls.set i {call with phase})[j]? = some c →
        (j ≠ i ∧ s.persistence.calls[j]? = some c) ∨ (j = i ∧ c = {call with phase}) := by
      intro j c hc
      by_cases hj : j = i
      · subst hj
        rw [List.getElem?_set_self hlength] at hc
        exact Or.inr ⟨rfl, (Option.some.inj hc).symm⟩
      · rw [List.getElem?_set_ne (Ne.symm hj)] at hc
        exact Or.inl ⟨hj, hc⟩
    refine ⟨⟨initial, hordered'⟩, h.loaded, h.unpending, ?_, h.derived, ?_, ?_, ?_⟩
    · show _ ≤ (s.persistence.calls.set i {call with phase}).length
      rw [List.length_set]
      exact h.since
    · intro j c hj hc
      rcases hget j c hc with ⟨-, hold⟩ | ⟨rfl, rfl⟩
      · exact h.made j c hj hold
      · exact h.made j call hj hcall
    · intro j c hj hc
      rcases hget j c hc with ⟨-, hold⟩ | ⟨rfl, rfl⟩
      · exact h.old j c hj hold
      · exact (requestWrite_spent (h.old j call hj hcall) hwrite).1
    · rcases hturn.writes with ⟨hwrites, hfile⟩ | ⟨-, -, output, houtput, hfile⟩
      · show u.writes = origin.writes ∧ u.file = origin.file ∨ ∃ r, Made lib fresh ops r ∧ u.file = requestOutput numerals r
        rw [hwrites, hfile]
        exact h.file
      · by_cases hi : i < origin.calls.length
        · obtain ⟨-, hwrites, hsame⟩ := requestWrite_spent (h.old i call hi hcall) hwrite
          show u.writes = origin.writes ∧ u.file = origin.file ∨ ∃ r, Made lib fresh ops r ∧ u.file = requestOutput numerals r
          rw [hwrites, hsame]
          exact h.file
        · exact Or.inr ⟨call.request, h.made i call (by omega) hcall, hfile.trans houtput.symm⟩

theorem AfterReset.step (h : AfterReset lib numerals origin fresh ops s) {a : SessionAction}
    (hstep : (session lib numerals).step s a = some t) :
    AfterReset lib numerals origin fresh (ops ++ opsOf s a) t := by
  have hopen : s.main = .idle → s.main ≠ .closed := fun hidle => by simp [hidle]
  cases session_step hstep with
  | ingest snapshot hidle =>
    apply h.setTables (hopen hidle) (lsmAppHistoryIngest lib s.history snapshot)
    · rw [lsmAppHistoryIngest_frame]
      exact h.unpending
    · intro u hu
      exact ⟨_, rfl, lsmAppHistoryIngest_tables lib hu snapshot⟩
  | readFile walk failed hreading =>
    rw [show opsOf s (.readFile walk failed) = [] from rfl, List.append_nil]
    refine ⟨h.ordered, ?_, h.unpending, h.since, h.derived, h.made, h.old, h.file⟩
    intro hnot
    have hdone := h.loaded hnot
    rw [hreading] at hdone
    cases hdone
  | loadComplete outcome run save hidle hload =>
    have hdone := h.loaded (hopen hidle)
    rw [hload] at hdone
    cases hdone
  | save save hidle =>
    rw [show opsOf s (.save save) = [] from rfl, List.append_nil]
    exact h.save (hopen hidle) save
  | saveSync save hidle =>
    rw [show opsOf s (.saveSync save) = [] from rfl, List.append_nil]
    rcases lsmHistorySaveSync_cases s save with hsame | hagain | ⟨-, -, hscheduled⟩
    · rw [hsame]
      exact h
    · rw [hagain]
      exact h.setFlags {s.history with saveAgain := true} rfl h.unpending s.worker
    · rw [hscheduled]
      exact h.schedule (hopen hidle) save.walk s.history rfl h.unpending s.worker _
  | reset save hidle =>
    have hcleared : AfterReset lib numerals origin fresh (ops ++ [.reset]) {s with history := historyClear s.history} := by
      apply h.setTables (hopen hidle) (historyClear s.history) h.unpending
      intro u hu
      exact ⟨_, rfl, historyClear_tables hu⟩
    exact hcleared.save (hopen hidle) save
  | saveComplete i request failure written save hidle hcall =>
    rw [show opsOf s (.saveComplete save) = [] from rfl, List.append_nil]
    exact (h.setFlags {s.history with
      savePending := false
      dirty := if failure = 0 ∧ written = true ∧ request.generation = s.history.mutationGeneration then false
        else s.history.dirty} rfl h.unpending none).saveIfAgain (hopen hidle) save
  | syncComplete i request failure written closing hsaving hcall =>
    rw [show opsOf s .syncComplete = [] from rfl, List.append_nil]
    have hnot : s.main ≠ .closed := by simp [hsaving]
    have hflags := h.setFlags {s.history with
      dirty := if failure = 0 ∧ (written = true ∨ request.generation ≤ s.persistence.latestWritten) then false
        else s.history.dirty} rfl h.unpending s.worker
    have hidle : AfterReset lib numerals origin fresh ops {s with
        history := {s.history with
          dirty := if failure = 0 ∧ (written = true ∨ request.generation ≤ s.persistence.latestWritten) then false
            else s.history.dirty}
        main := .idle} :=
      ⟨hflags.ordered, fun _ => hflags.loaded hnot, hflags.unpending, hflags.since, fun _ => hflags.derived hnot,
        hflags.made, hflags.old, hflags.file⟩
    unfold History.syncComplete
    dsimp only
    split
    · exact hidle.close
    · exact hidle
  | destroy save hidle =>
    rw [show opsOf s (.destroy save) = [] from rfl, List.append_nil]
    rcases lsmHistoryDestroy_cases s save with hclosed | ⟨-, -, hscheduled⟩
    · rw [hclosed]
      exact h.close
    · rw [hscheduled]
      exact h.schedule (hopen hidle) save.walk s.history rfl h.unpending s.worker _
  | write i failure persistence hadvance =>
    rw [show opsOf s (.write i failure) = [] from rfl, List.append_nil]
    exact h.write hadvance

/-- Empty tables. The counter of snapshots goes on, and the next interval still
starts at the last snapshot. -/
def afresh (s : LsmHistoryState) : LsmHistoryState := {generation := s.generation, lastSample := s.lastSample}

/-- The accepted reset, before it is saved. -/
theorem Base.cleared {initial : Option Text} (h : Base numerals initial s) (hidle : s.main = .idle)
    (hloaded : s.history.loadPending = false) (hspent : ∀ call ∈ s.persistence.calls, call.phase.spent = true) :
    AfterReset lib numerals s.persistence (afresh s.history) [] {s with history := historyClear s.history} where
  ordered := ⟨initial, h.ordered⟩
  loaded _ := h.loading (by simp [hidle]) hloaded
  unpending := hloaded
  since := Nat.le_refl _
  derived _ := ⟨afresh s.history, rfl, rfl⟩
  made i call hi hcall := by
    rw [List.getElem?_eq_none hi] at hcall
    cases hcall
  old i call _ hcall := hspent call (List.mem_of_getElem? hcall)
  file := Or.inl ⟨rfl, rfl⟩

end

/-- **A reset is final** when the load is no longer pending and no write call is
left that could still replace the file. Whatever happens afterwards, the table
is what the operations since the reset make of empty tables, and the file is
still untouched or the output of a request for such a table. -/
theorem reset_final (lib : Arithmetic) (numerals : Numerals) (initial : Option Text) (before after : List SessionAction)
    (save : SaveRun) {s₀ s₁ s : Session} (hbefore : (session lib numerals).run (.start initial) before = some s₀)
    (hloaded : s₀.history.loadPending = false) (hspent : ∀ call ∈ s₀.persistence.calls, call.phase.spent = true)
    (hreset : (session lib numerals).step s₀ (.reset save) = some s₁)
    (hafter : (session lib numerals).run s₁ after = some s) :
    (s.main ≠ .closed → ∃ h, (retained lib).run (afresh s₀.history) ((session lib numerals).trace opsOf s₁ after) = some h ∧
      h.appHistory = s.history.appHistory ∧ h.appHistorySamples = s.history.appHistorySamples) ∧
    (s.persistence.writes = s₀.persistence.writes ∧ s.persistence.file = s₀.persistence.file ∨
      ∃ front, front <+: (session lib numerals).trace opsOf s₁ after ∧ ∃ h walk,
        (retained lib).run (afresh s₀.history) front = some h ∧
        s.persistence.file = requestOutput numerals (historySaveRequestCreate walk h)) := by
  have hbase : Base numerals initial s₀ :=
    (session lib numerals).run_preserves _ (fun _ _ _ h => h.step) (.start numerals initial) hbefore
  have hstart : AfterReset lib numerals s₀.persistence (afresh s₀.history) [] s₁ := by
    cases session_step hreset with
    | reset save hidle => exact (hbase.cleared hidle hloaded hspent).save (by simp [hidle]) save
  have hend := (session lib numerals).run_trace_invariant opsOf (fun _ _ => True)
    (AfterReset lib numerals s₀.persistence (afresh s₀.history)) (fun _ _ _ _ h _ => h.step) hstart
    ((session lib numerals).admissible_true s₁ after) hafter
  rw [List.nil_append] at hend
  refine ⟨?_, ?_⟩
  · intro hopen
    obtain ⟨h, hrun, htables⟩ := hend.derived hopen
    exact ⟨h, hrun, congrArg (fun t => t.appHistory) htables, congrArg (fun t => t.appHistorySamples) htables⟩
  · rcases hend.file with hsame | ⟨r, ⟨front, hfront, h, walk, hrun, hentries⟩, hfile⟩
    · exact Or.inl hsame
    · refine Or.inr ⟨front, hfront, h, walk, hrun, ?_⟩
      rw [hfile, requestOutput, requestOutput, hentries]

/-- What an earlier run has left in the file. -/
def earlierEntry : LsmHistoryEntry where
  key := ascii "uid:1000|/a"
  name := ascii "a"
  user := []
  identity := ascii "/a"
  readBytes := 5
  firstSeen := 1
  lastSeen := 1

def earlierFile : Option Text := requestOutput .documented ⟨[persistEntry earlierEntry], 1⟩

def mergeStored : MergeRun := ⟨.stored, .stored, true⟩
def saveStored : SaveRun := ⟨.stored, true⟩

/-- The load and its merge. -/
def loadActions : List SessionAction := [.readFile .stored false, .loadComplete mergeStored saveStored]

/-- What the file would give a later run. -/
def fileReadBytes (s : Session) : Option (List Nat) :=
  s.persistence.file.map fun bytes => (historyLoadPath .documented .stored bytes).1.appHistory.rows.map (·.readBytes)

theorem reset_final_loaded :
    ∃ s₀ s₁ s, (session .documented .documented).run (.start earlierFile) loadActions = some s₀ ∧
      s₀.history.appHistory.rows.map (·.readBytes) = [5] ∧
      (session .documented .documented).step s₀ (.reset saveStored) = some s₁ ∧
      (session .documented .documented).run s₁ (List.replicate 10 (.write 0 none)) = some s ∧
      fileReadBytes s = some [] ∧
      ∃ h, (retained .documented).run (afresh s₀.history) ((session .documented .documented).trace opsOf s₁
        (List.replicate 10 (.write 0 none))) = some h ∧ h.appHistory = s.history.appHistory := by
  have hloaded : ((session .documented .documented).run (.start earlierFile) loadActions).map (fun s => decide
      (s.history.appHistory.rows.map (·.readBytes) = [5] ∧ s.history.loadPending = false ∧
        ∀ call ∈ s.persistence.calls, call.phase.spent = true)) = some true := by decide +kernel
  have hreset : (((session .documented .documented).run (.start earlierFile) loadActions).bind fun s =>
      (session .documented .documented).step s (.reset saveStored)).isSome = true := by decide +kernel
  have hafter : ((((session .documented .documented).run (.start earlierFile) loadActions).bind fun s =>
      (session .documented .documented).step s (.reset saveStored)).bind fun s =>
        (session .documented .documented).run s (List.replicate 10 (.write 0 none))).map (fun s =>
          decide (fileReadBytes s = some [] ∧ s.main = .idle)) = some true := by decide +kernel
  obtain ⟨s₀, hrun₀, hfacts⟩ := Option.map_eq_some_iff.mp hloaded
  obtain ⟨hrows, hpending, hspent⟩ := of_decide_eq_true hfacts
  rw [hrun₀, Option.bind_some] at hreset hafter
  obtain ⟨s₁, hstep⟩ := Option.isSome_iff_exists.mp hreset
  rw [hstep, Option.bind_some] at hafter
  obtain ⟨s, hrun, hfile⟩ := Option.map_eq_some_iff.mp hafter
  obtain ⟨hbytes, hidle⟩ := of_decide_eq_true hfile
  obtain ⟨h, hops, htable, -⟩ := (reset_final .documented .documented earlierFile _ _ saveStored hrun₀ hpending hspent
    hstep hrun).1 (by simp [hidle])
  exact ⟨s₀, s₁, s, hrun₀, hrows, hstep, hrun, hbytes, h, hops, htable⟩

/-- A reset between the reading of the file and its merge: everything comes back,
in memory and in the file, with nothing ingested at all. And a reset while a
save is under way: the file then takes what was cleared. -/
theorem reset_undone :
    (∃ s₀ s₁ s, (session .documented .documented).run (.start earlierFile) [.readFile .stored false] = some s₀ ∧
      (session .documented .documented).step s₀ (.reset saveStored) = some s₁ ∧
      (session .documented .documented).run s₁ (.loadComplete mergeStored saveStored ::
        List.replicate 10 (.write 0 none)) = some s ∧
      s.history.appHistory.rows.map (·.readBytes) = [5] ∧ fileReadBytes s = some [5]) ∧
    ∃ s₀ s₁ s, (session .documented .documented).run (.start none) (loadActions ++
        [.ingest (twoPrograms plainProgram spacedProgram), .save saveStored, .write 0 none]) = some s₀ ∧
      (session .documented .documented).step s₀ (.reset saveStored) = some s₁ ∧
      s₁.history.appHistory.rows = [] ∧ s₁.persistence.file = none ∧
      (session .documented .documented).run s₁ (List.replicate 9 (.write 0 none)) = some s ∧
      fileReadBytes s = some [0, 0] := by
  have hmerged : (((session .documented .documented).run (.start earlierFile) [.readFile .stored false]).bind fun s =>
      ((session .documented .documented).step s (.reset saveStored)).bind fun s =>
        (session .documented .documented).run s (.loadComplete mergeStored saveStored ::
          List.replicate 10 (.write 0 none))).map (fun s => decide
            (s.history.appHistory.rows.map (·.readBytes) = [5] ∧ fileReadBytes s = some [5])) = some true := by
    decide +kernel
  have hcleared : (((session .documented .documented).run (.start none) (loadActions ++
      [.ingest (twoPrograms plainProgram spacedProgram), .save saveStored, .write 0 none])).bind fun s =>
        (session .documented .documented).step s (.reset saveStored)).map (fun s => decide
          (s.history.appHistory.rows = [] ∧ s.persistence.file = none)) = some true := by decide
  have hwritten : ((((session .documented .documented).run (.start none) (loadActions ++
      [.ingest (twoPrograms plainProgram spacedProgram), .save saveStored, .write 0 none])).bind fun s =>
        (session .documented .documented).step s (.reset saveStored)).bind fun s =>
          (session .documented .documented).run s (List.replicate 9 (.write 0 none))).map (fun s => decide
            (fileReadBytes s = some [0, 0])) = some true := by decide +kernel
  refine ⟨?_, ?_⟩
  · obtain ⟨s, hrun, hfacts⟩ := Option.map_eq_some_iff.mp hmerged
    obtain ⟨s₀, hrun₀, hrest⟩ := Option.bind_eq_some_iff.mp hrun
    obtain ⟨s₁, hstep, hrun₁⟩ := Option.bind_eq_some_iff.mp hrest
    exact ⟨s₀, s₁, s, hrun₀, hstep, hrun₁, of_decide_eq_true hfacts⟩
  · obtain ⟨s₁, hrun₁, hfacts⟩ := Option.map_eq_some_iff.mp hcleared
    obtain ⟨s₀, hrun₀, hstep⟩ := Option.bind_eq_some_iff.mp hrun₁
    rw [hrun₁, Option.bind_some] at hwritten
    obtain ⟨s, hrun, hbytes⟩ := Option.map_eq_some_iff.mp hwritten
    obtain ⟨hrows, hfile⟩ := of_decide_eq_true hfacts
    exact ⟨s₀, s₁, s, hrun₀, hstep, hrows, hfile, hrun, of_decide_eq_true hbytes⟩

end SystemMonitor.History
