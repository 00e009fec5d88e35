import SystemMonitor.Lib.Machine
import SystemMonitor.History.Ingest

/-! What a process instance is credited with.

Each snapshot credits an application with what the counters of its processes
grew by since their retained samples. The `Ledger` carries, beside the state,
every reading accounted and every credit given for it. An unavailable reading
has zero totals, and the sample recorded from it makes the next available
reading look as if everything had been read since. Where that does not happen
(`Grounded`), no instance is credited with more than its counter grew by between
its first and its last available reading; and the credits of an instance never
depend on the readings of another (`credit_bounded`). -/
namespace SystemMonitor.History
open Lib Process

inductive IoCounter where
  | read | write
  deriving DecidableEq

namespace IoCounter

def total : IoCounter → LsmProcessInfo → Nat
  | read, p => p.readBytes
  | write, p => p.writeBytes

def sampled : IoCounter → LsmHistorySample → Nat
  | read, x => x.readBytes
  | write, x => x.writeBytes

def delta : IoCounter → Deltas → Nat
  | read, d => d.read
  | write, d => d.write

def credit : IoCounter → LsmHistoryEntry → Nat
  | read, e => e.readBytes
  | write, e => e.writeBytes

@[simp] theorem sampled_historySample (c : IoCounter) (generation : Nat) (p : LsmProcessInfo) :
    c.sampled (historySample generation p) = c.total p := by
  cases c <;> rfl

theorem delta_sampleDeltas (c : IoCounter) (samples : Samples) (p : LsmProcessInfo) :
    c.delta (sampleDeltas samples p) = match samples.find? (historyProcessKey p) with
      | none => 0
      | some x => counterGrowth (c.total p) (c.sampled x) := by
  unfold sampleDeltas
  cases samples.find? (historyProcessKey p) with
  | none => cases c <;> rfl
  | some x => cases c <;> rfl

end IoCounter

/-! ### The ledger -/

structure Ledger where
  state : LsmHistoryState := {}
  readings : List LsmProcessInfo := []
  credits : List (LsmHistoryProcessKey × Deltas) := []

/-- `ingestProcess`, with the credit it gives. -/
def Ledger.process (lib : Arithmetic) (generation : Nat) (elapsed : ℚ) (nowEpoch : Int) (a : Ledger)
    (reading : Reading) : Ledger where
  state := ingestProcess lib generation elapsed nowEpoch a.state reading
  readings := a.readings ++ [reading.process]
  credits := a.credits ++
    [(historyProcessKey reading.process, sampleDeltas a.state.appHistorySamples reading.process)]

/-- Part of a snapshot. -/
def Ledger.part (lib : Arithmetic) (a : Ledger) (snapshot : Snapshot) (readings : List Reading) : Ledger :=
  readings.foldl (Ledger.process lib (nextGeneration a.state.generation)
    (ingestElapsed a.state snapshot.nowMono) snapshot.nowEpoch)
    {a with state := {a.state with
      generation := nextGeneration a.state.generation, lastSample := snapshot.nowMono}}

/-- A whole snapshot. The state is what `lsmAppHistoryIngest` makes of it. -/
def Ledger.ingest (lib : Arithmetic) (a : Ledger) (snapshot : Snapshot) : Ledger :=
  {a.part lib snapshot snapshot.processes with state := lsmAppHistoryIngest lib a.state snapshot}

def accounting (lib : Arithmetic) : Machine Ledger Snapshot where
  step a snapshot := some (a.ingest lib snapshot)

/-- The readings of an instance. -/
def instanceReadings (k : LsmHistoryProcessKey) (readings : List LsmProcessInfo) : List LsmProcessInfo :=
  readings.filter fun p => historyProcessKey p = k

/-- Its totals, where they were available. -/
def available (c : IoCounter) (k : LsmHistoryProcessKey) (readings : List LsmProcessInfo) : List Nat :=
  ((instanceReadings k readings).filter (·.ioTotalsAvailable)).map c.total

/-- From the first to the last. -/
def span (totals : List Nat) : Nat := totals.getLast?.getD 0 - totals.head?.getD 0

/-- The credits given on account of an instance. -/
def creditsOf (k : LsmHistoryProcessKey) (credits : List (LsmHistoryProcessKey × Deltas)) : List Deltas :=
  (credits.filter fun x => x.1 = k).map (·.2)

def credited (c : IoCounter) (k : LsmHistoryProcessKey) (credits : List (LsmHistoryProcessKey × Deltas)) : Nat :=
  ((creditsOf k credits).map c.delta).sum

/-- `read_process_io` leaves the bytes of an unavailable reading at zero. -/
def Honest (p : LsmProcessInfo) : Prop := p.ioTotalsAvailable = false → p.readBytes = 0 ∧ p.writeBytes = 0

instance (p : LsmProcessInfo) : Decidable (Honest p) := inferInstanceAs (Decidable (_ → _))

/-- An available reading is not measured against a sample of an unavailable one,
unless its total or the last available one is zero. -/
def Grounded (c : IoCounter) (a : Ledger) (p : LsmProcessInfo) : Prop :=
  p.ioTotalsAvailable = true → (a.state.appHistorySamples.find? (historyProcessKey p)).isSome = true →
    (instanceReadings (historyProcessKey p) a.readings).getLast?.any (fun r => !r.ioTotalsAvailable) = true →
    c.total p = 0 ∨ (available c (historyProcessKey p) a.readings).getLast? = some 0

instance (c : IoCounter) (a : Ledger) (p : LsmProcessInfo) : Decidable (Grounded c a p) :=
  inferInstanceAs (Decidable (_ → _ → _ → _))

/-- Every reading of the instance in a snapshot is, in the state it is accounted in. -/
def GroundedIn (lib : Arithmetic) (c : IoCounter) (k : LsmHistoryProcessKey) (a : Ledger) (snapshot : Snapshot) :
    Prop :=
  ∀ front reading rest, snapshot.processes = front ++ reading :: rest → historyProcessKey reading.process = k →
    Grounded c (a.part lib snapshot front) reading.process

/-! ### What a step does to the ledger -/

section
variable (lib : Arithmetic)

theorem ingestProcess_samples (generation : Nat) (elapsed : ℚ) (nowEpoch : Int) (s : LsmHistoryState)
    (reading : Reading) : (ingestProcess lib generation elapsed nowEpoch s reading).appHistorySamples =
      s.appHistorySamples.put (historySample generation reading.process) := by
  simp only [ingestProcess, historyEntryGet]
  split <;> rfl

theorem find?_process (generation : Nat) (elapsed : ℚ) (nowEpoch : Int) (a : Ledger) (reading : Reading)
    (k : LsmHistoryProcessKey) :
    (a.process lib generation elapsed nowEpoch reading).state.appHistorySamples.find? k =
      if historyProcessKey reading.process = k then some (historySample generation reading.process)
      else a.state.appHistorySamples.find? k := by
  simp only [Ledger.process, ingestProcess_samples, Table.find?_put]
  rfl

/-- The credit of a reading is what the entry of its application grows by. -/
theorem ingestProcess_credit (c : IoCounter) (generation : Nat) (elapsed : ℚ) (nowEpoch : Int)
    (s : LsmHistoryState) (reading : Reading) :
    ∃ e, (ingestProcess lib generation elapsed nowEpoch s reading).appHistory.find?
        (historyKey reading.process) = some e ∧
      c.credit e = lib.u64AddSaturating (c.credit (historyEntryGet s reading).2)
        (c.delta (sampleDeltas s.appHistorySamples reading.process)) := by
  have hkey : (historyEntryGet s reading).2.key = historyKey reading.process := by
    unfold historyEntryGet
    cases hfind : s.appHistory.find? (historyKey reading.process) with
    | none => rfl
    | some entry => exact (Table.find?_eq_some.mp hfind).2
  refine ⟨accountedEntry lib generation elapsed nowEpoch s.appHistorySamples reading.process
    (historyEntryGet s reading).2, ?_, ?_⟩
  · simp only [ingestProcess, Table.find?_put]
    apply if_pos
    rw [← hkey]
    simp only [accountedEntry, creditEntry, addRss, beginLive]
    split <;> rfl
  · simp only [accountedEntry, creditEntry, addRss, beginLive]
    cases c <;> split <;> rfl

theorem part_state (a : Ledger) (snapshot : Snapshot) (readings : List Reading) :
    (a.part lib snapshot readings).state = readings.foldl
      (ingestProcess lib (nextGeneration a.state.generation) (ingestElapsed a.state snapshot.nowMono)
        snapshot.nowEpoch)
      {a.state with generation := nextGeneration a.state.generation, lastSample := snapshot.nowMono} := by
  induction readings using List.reverseRecOn with
  | nil => rfl
  | append_singleton front reading ih =>
    rw [List.foldl_concat, ← ih, Ledger.part, List.foldl_concat]
    rfl

theorem part_concat (a : Ledger) (snapshot : Snapshot) (front : List Reading) (reading : Reading) :
    a.part lib snapshot (front ++ [reading]) = (a.part lib snapshot front).process lib
      (nextGeneration a.state.generation) (ingestElapsed a.state snapshot.nowMono) snapshot.nowEpoch reading :=
  List.foldl_concat ..

/-- The samples after a snapshot: those of the whole pass that are not stale. -/
theorem ingest_samples (a : Ledger) (snapshot : Snapshot) :
    (a.ingest lib snapshot).state.appHistorySamples =
      (a.part lib snapshot snapshot.processes).state.appHistorySamples.filter
        fun x => !staleSample (nextGeneration a.state.generation) x := by
  show (lsmAppHistoryIngest lib a.state snapshot).appHistorySamples = _
  rw [lsmAppHistoryIngest_frame, part_state]
  rfl

theorem ingest_generation (a : Ledger) (snapshot : Snapshot) :
    (a.ingest lib snapshot).state.generation = nextGeneration a.state.generation := by
  show (lsmAppHistoryIngest lib a.state snapshot).generation = _
  rw [lsmAppHistoryIngest_frame]

end

/-! ### The bound -/

section
variable {c : IoCounter} {k : LsmHistoryProcessKey} {a : Ledger}

theorem instanceReadings_same (readings : List LsmProcessInfo) (p : LsmProcessInfo) :
    instanceReadings (historyProcessKey p) (readings ++ [p]) =
      instanceReadings (historyProcessKey p) readings ++ [p] := by
  simp [instanceReadings]

theorem instanceReadings_other (readings : List LsmProcessInfo) {p : LsmProcessInfo}
    (h : historyProcessKey p ≠ k) : instanceReadings k (readings ++ [p]) = instanceReadings k readings := by
  simp [instanceReadings, h]

theorem available_same (readings : List LsmProcessInfo) (p : LsmProcessInfo) :
    available c (historyProcessKey p) (readings ++ [p]) = available c (historyProcessKey p) readings ++
      if p.ioTotalsAvailable then [c.total p] else [] := by
  unfold available
  rw [instanceReadings_same, List.filter_append, List.map_append]
  cases havail : p.ioTotalsAvailable with
  | false => simp [havail]
  | true => simp [havail]

/-- After an available reading, the last available total is its own. -/
theorem available_getLast? {readings : List LsmProcessInfo} {r : LsmProcessInfo}
    (hlast : (instanceReadings k readings).getLast? = some r) (havail : r.ioTotalsAvailable = true) :
    (available c k readings).getLast? = some (c.total r) := by
  obtain ⟨front, hfront⟩ := List.getLast?_eq_some_iff.mp hlast
  simp [available, hfront, havail]

theorem creditsOf_concat (credits : List (LsmHistoryProcessKey × Deltas)) (x : LsmHistoryProcessKey × Deltas) :
    creditsOf k (credits ++ [x]) = creditsOf k credits ++ if x.1 = k then [x.2] else [] := by
  by_cases h : x.1 = k
  · simp [creditsOf, h]
  · simp [creditsOf, h]

/-- A total at least as large as the last one adds its distance from it. -/
theorem span_concat {totals : List Nat} {t : Nat} (h : (totals ++ [t]).Pairwise (· ≤ ·)) :
    span (totals ++ [t]) = span totals + (t - totals.getLast?.getD t) := by
  obtain ⟨hsorted, -, hlast⟩ := List.pairwise_append.mp h
  cases totals with
  | nil => simp [span]
  | cons first rest =>
    obtain ⟨last, hgetLast⟩ : ∃ last, (first :: rest).getLast? = some last := ⟨_, List.getLast?_eq_some_getLast (by simp)⟩
    have hmem : last ∈ first :: rest := List.mem_of_getLast? hgetLast
    have hle : first ≤ last := by
      rcases List.mem_cons.mp hmem with rfl | hmem
      · exact Nat.le_refl _
      · exact List.rel_of_pairwise_cons hsorted hmem
    have hnew : last ≤ t := hlast last hmem t (List.mem_singleton_self t)
    have hend : ((first :: rest) ++ [t]).getLast? = some t := List.getLast?_concat
    rw [span, span, hend, hgetLast]
    simp only [List.cons_append, List.head?_cons, Option.getD_some]
    omega

/-- What is known of an instance between readings: its sample is its last
reading, and its credits are within what its counter grew by. -/
structure Credited (c : IoCounter) (k : LsmHistoryProcessKey) (a : Ledger) : Prop where
  sampled : ∀ x, a.state.appHistorySamples.find? k = some x →
    ∃ r, (instanceReadings k a.readings).getLast? = some r ∧ c.sampled x = c.total r ∧
      (r.ioTotalsAvailable = false → c.total r = 0)
  bounded : credited c k a.credits ≤ span (available c k a.readings)

theorem Honest.total {p : LsmProcessInfo} (h : Honest p) (c : IoCounter) (hnot : p.ioTotalsAvailable = false) :
    c.total p = 0 := by
  cases c with
  | read => exact (h hnot).1
  | write => exact (h hnot).2

/-- What one reading credits never exceeds what it adds to the span. -/
theorem Credited.delta_le {p : LsmProcessInfo} (h : Credited c (historyProcessKey p) a) (hhonest : Honest p)
    (hsorted : (available c (historyProcessKey p) (a.readings ++ [p])).Pairwise (· ≤ ·))
    (hgrounded : Grounded c a p) :
    span (available c (historyProcessKey p) a.readings) + c.delta (sampleDeltas a.state.appHistorySamples p) ≤
      span (available c (historyProcessKey p) (a.readings ++ [p])) := by
  rw [IoCounter.delta_sampleDeltas]
  rw [available_same] at hsorted ⊢
  cases havail : p.ioTotalsAvailable with
  | false =>
    -- A zero total credits nothing, whatever it is measured against.
    rw [if_neg (by simp), List.append_nil]
    cases a.state.appHistorySamples.find? (historyProcessKey p) with
    | none => exact Nat.le_refl _
    | some x =>
      simp only [counterGrowth, hhonest.total c havail]
      split <;> omega
  | true =>
    rw [havail, if_pos rfl] at hsorted
    rw [if_pos rfl, span_concat hsorted]
    cases hfind : a.state.appHistorySamples.find? (historyProcessKey p) with
    | none => exact Nat.le_add_right _ _
    | some x =>
      obtain ⟨r, hlast, hsampled, hzero⟩ := h.sampled x hfind
      simp only [counterGrowth, hsampled]
      cases hr : r.ioTotalsAvailable with
      | true =>
        rw [available_getLast? hlast hr, Option.getD_some]
        split <;> omega
      | false =>
        rw [hzero hr]
        rcases hgrounded havail (by rw [hfind]; rfl) (by simp [hlast, hr]) with hnone | hbase
        · split <;> omega
        · rw [hbase, Option.getD_some]
          split <;> omega

theorem Credited.process (lib : Arithmetic) (generation : Nat) (elapsed : ℚ) (nowEpoch : Int) (h : Credited c k a)
    (reading : Reading) (hhonest : Honest reading.process)
    (hsorted : (available c k (a.readings ++ [reading.process])).Pairwise (· ≤ ·))
    (hgrounded : historyProcessKey reading.process = k → Grounded c a reading.process) :
    Credited c k (a.process lib generation elapsed nowEpoch reading) := by
  by_cases hk : historyProcessKey reading.process = k
  · subst hk
    refine ⟨?_, ?_⟩
    · intro x hx
      rw [find?_process, if_pos rfl] at hx
      cases hx
      refine ⟨reading.process, ?_, c.sampled_historySample _ _, fun hnot => hhonest.total c hnot⟩
      simp only [Ledger.process, instanceReadings_same, List.getLast?_concat]
    · have hdelta := h.delta_le hhonest hsorted (hgrounded rfl)
      have hbounded := h.bounded
      simp only [Ledger.process, credited, creditsOf_concat, if_true, List.map_append, List.sum_append,
        List.map_cons, List.map_nil, List.sum_singleton] at hbounded ⊢
      omega
  · refine ⟨?_, ?_⟩
    · intro x hx
      rw [find?_process, if_neg hk] at hx
      simp only [Ledger.process, instanceReadings_other _ hk]
      exact h.sampled x hx
    · simp only [Ledger.process, credited, creditsOf_concat, available, instanceReadings_other _ hk, if_neg hk,
        List.append_nil]
      exact h.bounded

/-- Part of a snapshot. -/
theorem Credited.part (lib : Arithmetic) (snapshot : Snapshot) (front : List Reading)
    (hhonest : ∀ r ∈ front, Honest r.process)
    (hsorted : (available c k (a.part lib snapshot front).readings).Pairwise (· ≤ ·))
    (hgrounded : ∀ before reading after, front = before ++ reading :: after →
      historyProcessKey reading.process = k → Grounded c (a.part lib snapshot before) reading.process)
    (h : Credited c k a) : Credited c k (a.part lib snapshot front) := by
  induction front using List.reverseRecOn with
  | nil => exact ⟨h.sampled, h.bounded⟩
  | append_singleton front reading ih =>
    rw [part_concat] at hsorted ⊢
    apply Credited.process
    · apply ih
      · intro r hr
        exact hhonest r (List.mem_append_left _ hr)
      · exact hsorted.sublist (((List.sublist_append_left _ _).filter _).filter _ |>.map _)
      · intro before r after heq
        exact hgrounded before r (after ++ [reading]) (by rw [heq, List.append_assoc]; rfl)
    · exact hhonest reading (by simp)
    · exact hsorted
    · exact hgrounded front reading [] rfl

/-- Dropping stale samples takes away knowledge, not credit. -/
theorem Credited.ingest (lib : Arithmetic) {snapshot : Snapshot}
    (h : Credited c k (a.part lib snapshot snapshot.processes)) : Credited c k (a.ingest lib snapshot) := by
  refine ⟨?_, h.bounded⟩
  intro x hx
  rw [ingest_samples, Table.find?_filter] at hx
  exact h.sampled x (Option.filter_eq_some_iff.mp hx).1

end

/-! ### Other instances -/

/-- The snapshot with the processes of one instance only. -/
def Snapshot.only (k : LsmHistoryProcessKey) (snapshot : Snapshot) : Snapshot :=
  {snapshot with processes := snapshot.processes.filter fun r => historyProcessKey r.process = k}

/-- Two ledgers that agree on an instance. -/
structure Agree (k : LsmHistoryProcessKey) (a b : Ledger) : Prop where
  generation : a.state.generation = b.state.generation
  sample : a.state.appHistorySamples.find? k = b.state.appHistorySamples.find? k
  credits : creditsOf k a.credits = creditsOf k b.credits

section
variable (lib : Arithmetic) {k : LsmHistoryProcessKey} {a b : Ledger}

theorem process_generation (generation : Nat) (elapsed : ℚ) (nowEpoch : Int) (reading : Reading) :
    (a.process lib generation elapsed nowEpoch reading).state.generation = a.state.generation := by
  simp only [Ledger.process, ingestProcess, historyEntryGet]
  split <;> rfl

theorem Agree.other (h : Agree k a b) (generation : Nat) (elapsed : ℚ) (nowEpoch : Int) {reading : Reading}
    (hk : historyProcessKey reading.process ≠ k) :
    Agree k (a.process lib generation elapsed nowEpoch reading) b where
  generation := (process_generation lib ..).trans h.generation
  sample := by
    rw [find?_process, if_neg hk]
    exact h.sample
  credits := by
    simp only [Ledger.process, creditsOf_concat, if_neg hk, List.append_nil]
    exact h.credits

theorem Agree.same (h : Agree k a b) (generation : Nat) (elapsed elapsed' : ℚ) (nowEpoch nowEpoch' : Int)
    {reading : Reading} (hk : historyProcessKey reading.process = k) :
    Agree k (a.process lib generation elapsed nowEpoch reading)
      (b.process lib generation elapsed' nowEpoch' reading) where
  generation := by
    rw [process_generation, process_generation]
    exact h.generation
  sample := by rw [find?_process, find?_process, if_pos hk, if_pos hk]
  credits := by
    simp only [Ledger.process, creditsOf_concat, sampleDeltas, hk, h.sample, h.credits]

theorem Agree.part (h : Agree k a b) (snapshot : Snapshot) (front : List Reading) :
    Agree k (a.part lib snapshot front)
      (b.part lib (snapshot.only k) (front.filter fun r => historyProcessKey r.process = k)) := by
  induction front using List.reverseRecOn with
  | nil => exact ⟨congrArg nextGeneration h.generation, h.sample, h.credits⟩
  | append_singleton front reading ih =>
    rw [part_concat, List.filter_append]
    by_cases hk : historyProcessKey reading.process = k
    · rw [show [reading].filter (fun r => historyProcessKey r.process = k) = [reading] by simp [hk], part_concat,
        ← h.generation]
      exact ih.same lib _ _ _ _ _ hk
    · rw [show [reading].filter (fun r => historyProcessKey r.process = k) = [] by simp [hk], List.append_nil]
      exact ih.other lib _ _ _ hk

theorem Agree.ingest (h : Agree k a b) (snapshot : Snapshot) :
    Agree k (a.ingest lib snapshot) (b.ingest lib (snapshot.only k)) := by
  have hpart := h.part lib snapshot snapshot.processes
  refine ⟨?_, ?_, hpart.credits⟩
  · rw [ingest_generation, ingest_generation, h.generation]
  · rw [ingest_samples, ingest_samples, Table.find?_filter, Table.find?_filter, hpart.sample, h.generation]
    rfl

/-- A whole run, and the same run with nothing but the instance. -/
theorem Agree.run (h : Agree k a b) {snapshots : List Snapshot} {a' : Ledger}
    (hrun : (accounting lib).run a snapshots = some a') :
    ∃ b', (accounting lib).run b (snapshots.map (Snapshot.only k)) = some b' ∧ Agree k a' b' := by
  induction snapshots generalizing a b with
  | nil =>
    cases hrun
    exact ⟨b, rfl, h⟩
  | cons snapshot rest ih =>
    obtain ⟨t, hstep, hrest⟩ := Machine.run_cons _ hrun
    cases hstep
    exact ih (h.ingest lib snapshot) hrest

end

/-! ### Runs -/

def Snapshot.readings (snapshots : List Snapshot) : List LsmProcessInfo :=
  snapshots.flatMap fun snapshot => snapshot.processes.map Reading.process

theorem part_readings (lib : Arithmetic) (a : Ledger) (snapshot : Snapshot) (front : List Reading) :
    (a.part lib snapshot front).readings = a.readings ++ front.map Reading.process := by
  induction front using List.reverseRecOn with
  | nil => simp [Ledger.part]
  | append_singleton front reading ih =>
    rw [part_concat]
    simp [Ledger.process, ih]

theorem run_readings (lib : Arithmetic) {snapshots : List Snapshot} {a a' : Ledger}
    (hrun : (accounting lib).run a snapshots = some a') :
    a'.readings = a.readings ++ Snapshot.readings snapshots := by
  induction snapshots generalizing a with
  | nil =>
    cases hrun
    simp [Snapshot.readings]
  | cons snapshot rest ih =>
    obtain ⟨t, hstep, hrest⟩ := Machine.run_cons _ hrun
    cases hstep
    rw [ih hrest]
    simp only [Ledger.ingest, part_readings, Snapshot.readings, List.flatMap_cons, List.append_assoc]

/-- **No instance is credited with more than it transferred.** In every run of
snapshots whose unavailable readings are zero and whose available totals of the
instance never decrease, if each of its readings is grounded, its credits do not
exceed the distance between its first and last available total. In any case they
are those of the run in which no other instance is ever seen. -/
theorem credit_bounded (lib : Arithmetic) (c : IoCounter) (k : LsmHistoryProcessKey) (snapshots : List Snapshot)
    {a : Ledger} (hrun : (accounting lib).run {} snapshots = some a)
    (hhonest : ∀ p ∈ Snapshot.readings snapshots, Honest p)
    (hsorted : (available c k (Snapshot.readings snapshots)).Pairwise (· ≤ ·))
    (hgrounded : (accounting lib).Admissible (GroundedIn lib c k) {} snapshots) :
    credited c k a.credits ≤ span (available c k (Snapshot.readings snapshots)) ∧
    ∃ alone, (accounting lib).run {} (snapshots.map (Snapshot.only k)) = some alone ∧
      creditsOf k a.credits = creditsOf k alone.credits := by
  have hreadings := run_readings lib hrun
  refine ⟨?_, ?_⟩
  · -- What is asked of the readings is asked of those accounted so far.
    have hinv := (accounting lib).run_invariant (GroundedIn lib c k)
      (fun a => (∀ p ∈ a.readings, Honest p) → (available c k a.readings).Pairwise (· ≤ ·) → Credited c k a)
      ?_ ?_ hgrounded hrun
    · rw [← List.nil_append (Snapshot.readings snapshots), ← hreadings]
      refine (hinv ?_ ?_).bounded
      · rw [hreadings]
        exact hhonest
      · rw [hreadings]
        exact hsorted
    · intro a snapshot t hinv hrule hstep hhonest hsorted
      cases hstep
      have hfront : (a.ingest lib snapshot).readings = a.readings ++ snapshot.processes.map Reading.process :=
        part_readings lib a snapshot snapshot.processes
      rw [hfront] at hhonest hsorted
      apply Credited.ingest lib
      apply Credited.part lib snapshot snapshot.processes
      · intro r hr
        exact hhonest r.process (List.mem_append_right _ (List.mem_map_of_mem hr))
      · rwa [part_readings]
      · exact hrule
      · apply hinv
        · intro p hp
          exact hhonest p (List.mem_append_left _ hp)
        · exact hsorted.sublist (((List.sublist_append_left _ _).filter _).filter _ |>.map _)
    · intro _ _
      exact ⟨fun x hx => absurd hx (by simp [Table.find?, Table.empty]), Nat.zero_le _⟩
  · obtain ⟨alone, halone, hagree⟩ := Agree.run lib ⟨rfl, rfl, rfl⟩ hrun
    exact ⟨alone, halone, hagree.credits⟩

/-- One process with its totals, or without. -/
def ioSnapshot (bytes : Option Nat) : Snapshot where
  processes := [⟨{pid := 7, instanceId := 100, readBytes := bytes.getD 0, ioTotalsAvailable := bytes.isSome}, 0⟩]
  nowMono := 1
  nowEpoch := 0
  walk := .stored
  allocated := true

theorem groundedIn_ioSnapshot {lib : Arithmetic} {c : IoCounter} {k : LsmHistoryProcessKey} {a : Ledger}
    {bytes : Option Nat} (h : ∀ r ∈ (ioSnapshot bytes).processes, Grounded c (a.part lib (ioSnapshot bytes) []) r.process) :
    GroundedIn lib c k a (ioSnapshot bytes) := by
  intro front reading rest heq _
  cases front with
  | nil => exact h reading (by rw [heq]; exact List.mem_cons_self ..)
  | cons first front => simp [ioSnapshot] at heq

theorem credit_bounded_grounded :
    ∃ a, (accounting .documented).run {} [ioSnapshot (some 100), ioSnapshot (some 150), ioSnapshot none] = some a ∧
      credited .read ⟨7, 100⟩ a.credits = 50 ∧
      credited .read ⟨7, 100⟩ a.credits ≤ span (available .read ⟨7, 100⟩
        (Snapshot.readings [ioSnapshot (some 100), ioSnapshot (some 150), ioSnapshot none])) := by
  refine ⟨_, rfl, by decide, ?_⟩
  refine (credit_bounded .documented .read ⟨7, 100⟩ [ioSnapshot (some 100), ioSnapshot (some 150), ioSnapshot none]
    rfl (by decide) (by decide) ?_).1
  refine ⟨groundedIn_ioSnapshot (by decide), fun t ht => ?_⟩
  cases ht
  refine ⟨groundedIn_ioSnapshot (by decide), fun t ht => ?_⟩
  cases ht
  exact ⟨groundedIn_ioSnapshot (by decide), fun t _ => trivial⟩

/-- Nothing is transferred, and everything is credited. -/
theorem unavailable_credited :
    (∀ p ∈ Snapshot.readings [ioSnapshot (some 100), ioSnapshot none, ioSnapshot (some 100)], Honest p) ∧
    (available .read ⟨7, 100⟩ (Snapshot.readings [ioSnapshot (some 100), ioSnapshot none,
      ioSnapshot (some 100)])).Pairwise (· ≤ ·) ∧
    ∃ a, (accounting .documented).run {} [ioSnapshot (some 100), ioSnapshot none, ioSnapshot (some 100)] = some a ∧
      ¬credited .read ⟨7, 100⟩ a.credits ≤ span (available .read ⟨7, 100⟩
        (Snapshot.readings [ioSnapshot (some 100), ioSnapshot none, ioSnapshot (some 100)])) := by
  refine ⟨by decide, by decide, _, rfl, by decide⟩

end SystemMonitor.History
