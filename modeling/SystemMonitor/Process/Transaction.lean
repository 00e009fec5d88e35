import SystemMonitor.Process.Ownership

/-! A scan is a transaction on the backend.

Over any history of scans, each of which may fail anywhere, the vector stays
sorted between scans, a failed scan leaves no trace in the samples, the
generation or the total, and a complete one leaves exactly one sample per
published row (`scan_transaction`). So the two baselines of a CPU share, the
process's ticks and the machine's, always come from one and the same scan: the
last complete one. -/
namespace SystemMonitor.Process
open Lib Journal

theorem nextGeneration_ne (generation : Nat) : nextGeneration generation ≠ generation := by
  simp only [nextGeneration]
  split <;> omega

/-! ### The two ends -/

/-- What every backend between scans satisfies. -/
structure Valid (backend : LsmProcessBackend) : Prop where
  sorted : StrictlySorted backend.samples
  current : ∀ s ∈ backend.samples, s.generation = backend.generation
  owns : Owns backend.heap backend.samples

section
variable {lib : Arithmetic} {ctx : ScanContext} {backend : LsmProcessBackend} {turns : List Turn} {s : ScanState}

theorem Progress.samples_nodup (hv : Valid backend) (h : Progress lib ctx backend.samples backend.heap turns s) :
    (s.samples.map (·.pid)).Nodup := by
  rw [h.pids]
  apply List.Nodup.append hv.sorted.nodup
  · exact h.distinct.sublist (List.filter_sublist.map _)
  · intro pid hold hnew
    obtain ⟨t, ht, rfl⟩ := List.mem_map.mp hnew
    have : t.pid ∉ backend.samples.map (·.pid) := by simpa [Turn.known] using (List.mem_filter.mp ht).2
    exact this hold

/-- Every turn's sample is in the vector, and what is not a turn's is an original. -/
theorem Progress.mem_samples (h : Progress lib ctx backend.samples backend.heap turns s) :
    (∀ x ∈ after lib ctx backend.samples turns, x ∈ s.samples) ∧
    ∀ x ∈ s.samples, x ∈ after lib ctx backend.samples turns ∨ x ∈ backend.samples := by
  constructor
  · intro x hx
    obtain ⟨t, ht, rfl⟩ := List.mem_map.mp hx
    by_cases hknown : t.known backend.samples
    · have hmem := List.mem_filter.mpr ⟨ht, hknown⟩
      exact List.mem_of_getElem? (h.current _ (List.mem_map.mpr ⟨t, hmem, rfl⟩))
    · rw [h.samples]
      apply List.mem_append_right
      exact List.mem_map.mpr ⟨t, List.mem_filter.mpr ⟨ht, by simpa using hknown⟩, rfl⟩
  · intro x hx
    rw [h.samples] at hx
    rcases List.mem_append.mp hx with hold | hnew
    · obtain ⟨o, ho, rfl⟩ := List.mem_map.mp hold
      cases hfind : (after lib ctx backend.samples turns).find? fun e => e.pid = o.pid with
      | none => exact Or.inr ho
      | some e => exact Or.inl (List.mem_of_find?_eq_some hfind)
    · obtain ⟨t, ht, rfl⟩ := List.mem_map.mp hnew
      exact Or.inl (List.mem_map.mpr ⟨t, (List.mem_filter.mp ht).1, rfl⟩)

/-- The generation picks out exactly the samples of this scan. -/
theorem Progress.kept (hv : Valid backend) (h : Progress lib ctx backend.samples backend.heap turns s)
    (hgen : ctx.generation = nextGeneration backend.generation) :
    (s.samples.filter fun x => x.generation = ctx.generation).Perm (after lib ctx backend.samples turns) := by
  have hafter : (after lib ctx backend.samples turns).Nodup := by
    apply List.Nodup.of_map (·.pid)
    rw [map_pid_after]
    exact h.distinct
  have hnodup := (List.Nodup.of_map _ (h.samples_nodup hv)).filter fun x => x.generation = ctx.generation
  apply (List.perm_ext_iff_of_nodup hnodup hafter).mpr
  intro x
  rw [List.mem_filter]
  constructor
  · intro hpair
    obtain ⟨hx, hxgen⟩ := hpair
    rcases h.mem_samples.2 x hx with hnew | hold
    · exact hnew
    · have hxgen : x.generation = ctx.generation := of_decide_eq_true hxgen
      rw [hv.current x hold, hgen] at hxgen
      exact absurd hxgen.symm (nextGeneration_ne _)
  · intro hx
    refine ⟨h.mem_samples.1 x hx, ?_⟩
    obtain ⟨t, _, rfl⟩ := List.mem_map.mp hx
    exact decide_eq_true rfl

theorem sortSamples_sorted {samples : List PreviousProcessSample} (hnodup : (samples.map (·.pid)).Nodup) :
    StrictlySorted (sortSamples samples) := by
  have hle : (sortSamples samples).Pairwise fun a b => a.pid ≤ b.pid :=
    List.pairwise_insertionSort (fun a b : PreviousProcessSample => a.pid ≤ b.pid) samples
  have hne : (sortSamples samples).Pairwise fun a b => a.pid ≠ b.pid := by
    apply List.pairwise_map.mp
    exact ((sortSamples_perm samples).map (·.pid)).nodup_iff.mpr hnodup
  exact (hle.and hne).imp fun h => Nat.lt_of_le_of_ne h.1 h.2

/-- What a complete scan leaves. -/
theorem scanCommit_spec (hv : Valid backend) (h : Progress lib ctx backend.samples backend.heap turns s)
    (hgen : ctx.generation = nextGeneration backend.generation) (total : Nat) :
    (scanCommit backend s ctx.generation total).samples.Perm (after lib ctx backend.samples turns) ∧
      Valid (scanCommit backend s ctx.generation total) := by
  have hkept := h.kept hv hgen
  have hnodup : ((s.samples.filter fun x => x.generation = ctx.generation).map (·.pid)).Nodup :=
    (h.samples_nodup hv).sublist (List.filter_sublist.map _)
  have howns := h.owns_commit hv.sorted hv.owns ctx.generation
  have hperm := scanCommit_perm backend s ctx.generation total
  refine ⟨hperm.trans hkept, ⟨?_, ?_, ?_⟩⟩
  · rcases scanCommit_samples backend s ctx.generation total with hsort | ⟨hsame, hnot⟩
    · rw [hsort]
      exact sortSamples_sorted hnodup
    · rw [hsame]
      by_cases hmore : 1 < (s.samples.filter fun x => x.generation = ctx.generation).length
      · -- Nothing was appended, so the kept samples are a part of the sorted prefix.
        have hlength : s.samples.length ≤ backend.samples.length := by omega
        have hpids := h.pids
        have hnone : (turns.filter fun t => !t.known backend.samples).map Turn.pid = [] := by
          apply List.length_eq_zero_iff.mp
          have := congrArg List.length hpids
          rw [List.length_append, List.length_map, List.length_map] at this
          omega
        rw [hnone, List.append_nil] at hpids
        apply List.Pairwise.filter
        apply List.pairwise_map.mp
        rw [hpids]
        exact List.pairwise_map.mpr hv.sorted
      · generalize s.samples.filter (fun x => x.generation = ctx.generation) = kept at hmore
        match kept with
        | [] => exact List.Pairwise.nil
        | [x] => exact List.pairwise_singleton _ x
        | _ :: _ :: _ => exact absurd (by simp) hmore
  · intro x hx
    exact of_decide_eq_true (List.mem_filter.mp (hperm.mem_iff.mp hx)).2
  · unfold Owns at howns ⊢
    rw [(hperm.map owned).sum_eq]
    exact howns

end

/-! ### One scan -/

/-- An enumeration that names each PID at most once. -/
def ScanInput.Distinct (input : ScanInput) : Prop := (input.entries.filterMap DirEntry.pid?).Nodup

instance (input : ScanInput) : Decidable input.Distinct := inferInstanceAs (Decidable (List.Nodup _))

theorem scanLoop_progress (lib : Arithmetic) {backend : LsmProcessBackend} (hv : Valid backend) {input : ScanInput}
    (hdistinct : input.Distinct) (total : Nat) :
    ∃ turns, Progress lib (scanContext lib backend input total) backend.samples backend.heap turns
        (scanLoop lib backend input total).1 ∧ ∀ t ∈ turns, t.Reads input.entries :=
  scanEntries_progress hv.sorted input.entries hdistinct (Progress.start backend.heap) (by simp)

/-- A failed scan releases only what it had stored. -/
theorem lsmProcessScan_failed_owns (lib : Arithmetic) {backend : LsmProcessBackend} (hv : Valid backend)
    {input : ScanInput} (hdistinct : input.Distinct) (hfail : (lsmProcessScan lib backend input).2 = none) :
    Owns (lsmProcessScan lib backend input).1.heap backend.samples := by
  rcases lsmProcessScan_cases lib backend input with hearly | ⟨total, -, hrolled | ⟨-, hdone⟩⟩
  · rw [hearly]
    exact hv.owns
  · obtain ⟨turns, hturns, -⟩ := scanLoop_progress lib hv hdistinct total
    rw [hrolled]
    exact hturns.owns_rollback ((Journalled.start _ _).entries input.entries) hv.owns
  · rw [hdone] at hfail
    cases hfail

/-- A complete scan is its turns: one per row and one per sample. -/
theorem lsmProcessScan_complete (lib : Arithmetic) {backend : LsmProcessBackend} (hv : Valid backend)
    {input : ScanInput} (hdistinct : input.Distinct) {rows : List LsmProcessInfo}
    (hrows : (lsmProcessScan lib backend input).2 = some rows) :
    ∃ total turns, input.currentTotalTicks = some total ∧ (turns.map Turn.pid).Nodup ∧
      (∀ t ∈ turns, t.Reads input.entries) ∧
      rows = turns.map (fun t => (t.visit lib (scanContext lib backend input total) backend.samples).row) ∧
      (lsmProcessScan lib backend input).1.samples.Perm
        (after lib (scanContext lib backend input total) backend.samples turns) ∧
      Valid (lsmProcessScan lib backend input).1 ∧
      (lsmProcessScan lib backend input).1.generation = nextGeneration backend.generation ∧
      (lsmProcessScan lib backend input).1.previousTotalCpuTicks = total := by
  rcases lsmProcessScan_cases lib backend input with hearly | ⟨total, htotal, hrolled | ⟨-, hdone⟩⟩
  · rw [hearly] at hrows
    cases hrows
  · rw [hrolled] at hrows
    cases hrows
  · obtain ⟨turns, hturns, hreads⟩ := scanLoop_progress lib hv hdistinct total
    obtain ⟨hperm, hvalid⟩ := scanCommit_spec hv hturns rfl total
    rw [hdone] at hrows ⊢
    refine ⟨total, turns, htotal, hturns.distinct, hreads, ?_, hperm, hvalid, rfl, rfl⟩
    exact (Option.some_inj.mp hrows).symm.trans hturns.processes

/-! ### Histories of scans -/

theorem Scanned.scan_failed (lib : Arithmetic) (s : Scanned) {input : ScanInput}
    (h : (lsmProcessScan lib s.backend input).2 = none) :
    s.scan lib input = ⟨(lsmProcessScan lib s.backend input).1, s.last⟩ := by
  simp only [Scanned.scan, h, Option.isSome_none, Bool.false_eq_true, if_false]

theorem Scanned.scan_complete (lib : Arithmetic) (s : Scanned) {input : ScanInput} {rows : List LsmProcessInfo}
    (h : (lsmProcessScan lib s.backend input).2 = some rows) :
    s.scan lib input = ⟨(lsmProcessScan lib s.backend input).1, some input⟩ := by
  simp only [Scanned.scan, h, Option.isSome_some, if_true]

/-- The scan reads this stat record for the PID. -/
def ScanInput.Shows (input : ScanInput) (pid : Nat) (stat : LinuxProcessStat) : Prop :=
  ∃ reads alloc, DirEntry.process pid reads alloc ∈ input.entries ∧ reads.stat = some stat

/-- Both baselines are those of the last complete scan. -/
structure Baseline (s : Scanned) : Prop where
  valid : Valid s.backend
  fresh : s.last = none → s.backend.samples = []
  total : ∀ prev, s.last = some prev → prev.currentTotalTicks = some s.backend.previousTotalCpuTicks
  ticks : ∀ prev, s.last = some prev → ∀ x ∈ s.backend.samples,
    ∃ stat, prev.Shows x.pid stat ∧ stat.startTicks = x.startTicks ∧ stat.cpuTicks = x.cpuTicks

theorem Baseline.create (totalMemoryBytes : Nat) (ticksPerSecond bootTimeEpoch : Int) (currentUid : Nat) :
    Baseline ⟨lsmProcessBackendCreate totalMemoryBytes ticksPerSecond bootTimeEpoch currentUid, none⟩ where
  valid := ⟨List.Pairwise.nil, fun _ hs => absurd hs List.not_mem_nil, Owns.start⟩
  fresh _ := rfl
  total _ h := nomatch h
  ticks _ h := nomatch h

theorem Turn.Reads.shows {t : Turn} {input : ScanInput} (h : t.Reads input.entries) : input.Shows t.pid t.stat :=
  ⟨t.reads, t.alloc, h.1, h.2⟩

theorem Baseline.scan (lib : Arithmetic) {s : Scanned} (h : Baseline s) {input : ScanInput}
    (hdistinct : input.Distinct) : Baseline (s.scan lib input) := by
  cases houtcome : (lsmProcessScan lib s.backend input).2 with
  | none =>
    obtain ⟨hsamples, hgen, htotal⟩ := lsmProcessScan_failed lib s.backend input houtcome
    have howns := lsmProcessScan_failed_owns lib h.valid hdistinct houtcome
    rw [s.scan_failed lib houtcome]
    refine ⟨⟨?_, ?_, ?_⟩, ?_, ?_, ?_⟩
    · rw [hsamples]
      exact h.valid.sorted
    · rw [hsamples, hgen]
      exact h.valid.current
    · rw [hsamples]
      exact howns
    · rw [hsamples]
      exact h.fresh
    · rw [htotal]
      exact h.total
    · rw [hsamples]
      exact h.ticks
  | some rows =>
    obtain ⟨total, turns, htotal, -, hreads, -, hperm, hvalid, -, hprevious⟩ :=
      lsmProcessScan_complete lib h.valid hdistinct houtcome
    rw [s.scan_complete lib houtcome]
    refine ⟨hvalid, ?_, ?_, ?_⟩
    · intro hnone
      cases hnone
    · intro prev hprev
      cases hprev
      rw [hprevious, htotal]
    · intro prev hprev x hx
      cases hprev
      obtain ⟨t, ht, rfl⟩ := List.mem_map.mp (hperm.mem_iff.mp hx)
      refine ⟨t.stat, ?_, rfl, rfl⟩
      rw [t.visit_sample_pid lib _ _]
      exact (hreads t ht).shows

theorem Baseline.history (lib : Arithmetic) {s : Scanned} (h : Baseline s) (history : List ScanInput)
    (hdistinct : ∀ input ∈ history, input.Distinct) : Baseline (history.foldl (Scanned.scan lib) s) := by
  induction history generalizing s with
  | nil => exact h
  | cons input rest ih =>
    apply ih (h.scan lib (hdistinct input (List.mem_cons_self ..)))
    intro i hi
    exact hdistinct i (List.mem_cons_of_mem _ hi)

/-- A CPU share over the interval between two scans. -/
def SharesInterval (lib : Arithmetic) (previous current : ScanInput) (row : LsmProcessInfo) : Prop :=
  ∃ previousTotal currentTotal previousStat currentStat,
    previous.currentTotalTicks = some previousTotal ∧ current.currentTotalTicks = some currentTotal ∧
    previous.Shows row.pid previousStat ∧ current.Shows row.pid currentStat ∧
    previousStat.startTicks = row.instanceId ∧ currentStat.startTicks = row.instanceId ∧
    previousStat.cpuTicks ≤ currentStat.cpuTicks ∧ previousTotal < currentTotal ∧
    row.cpuPercent = lsmProcessCpuTotalPercent lib (currentStat.cpuTicks - previousStat.cpuTicks)
      (currentTotal - previousTotal)

/-- A total delta that is not zero is the growth since the retained total. -/
theorem totalDelta_pos (lib : Arithmetic) {backend : LsmProcessBackend} {input : ScanInput} {total : Nat}
    (h : 0 < (scanContext lib backend input total).totalDelta) :
    backend.previousTotalCpuTicks < total ∧
      (scanContext lib backend input total).totalDelta = total - backend.previousTotalCpuTicks := by
  simp only [scanContext, lib.counterDelta_eq] at h ⊢
  by_cases hle : backend.previousTotalCpuTicks ≤ total
  · rw [if_pos hle, Option.getD_some] at h ⊢
    exact ⟨by omega, rfl⟩
  · rw [if_neg hle] at h
    exact absurd h (Nat.lt_irrefl 0)

/-- A published share is over the interval since the last complete scan. -/
theorem Baseline.cpuPercent (lib : Arithmetic) {s : Scanned} (h : Baseline s) {input : ScanInput}
    (hdistinct : input.Distinct) {rows : List LsmProcessInfo}
    (hrows : (lsmProcessScan lib s.backend input).2 = some rows) {row : LsmProcessInfo} (hrow : row ∈ rows)
    (hshare : row.cpuPercent ≠ 0) : ∃ previous, s.last = some previous ∧ SharesInterval lib previous input row := by
  obtain ⟨total, turns, htotal, -, hreads, rfl, -⟩ := lsmProcessScan_complete lib h.valid hdistinct hrows
  obtain ⟨t, ht, rfl⟩ := List.mem_map.mp hrow
  obtain ⟨hsame, hnonzero, hdelta, hle, hpercent⟩ := cpuShare_ne_zero lib _ _ _ hshare
  obtain ⟨hgrew, hdeltaEq⟩ := totalDelta_pos lib hdelta
  -- A sample with non-zero start ticks is one of the retained ones.
  have hmem : retained s.backend.samples t.pid ∈ s.backend.samples := by
    rcases retained_mem_or s.backend.samples t.pid with hmem | hnew
    · exact hmem
    · rw [hnew] at hnonzero
      exact absurd rfl hnonzero
  cases hlast : s.last with
  | none =>
    rw [h.fresh hlast] at hmem
    cases hmem
  | some previous =>
    obtain ⟨stat, hshows, hstart, hticks⟩ := h.ticks previous hlast _ hmem
    rw [retained_pid] at hshows
    have hpid : (t.visit lib (scanContext lib s.backend input total) s.backend.samples).row.pid = t.pid :=
      visit_row_pid ..
    have hinstance : (t.visit lib (scanContext lib s.backend input total) s.backend.samples).row.instanceId =
      t.stat.startTicks := visit_row_instanceId ..
    refine ⟨previous, rfl, s.backend.previousTotalCpuTicks, total, stat, t.stat, h.total previous hlast, htotal, ?_⟩
    rw [hpid, hinstance, hticks]
    refine ⟨hshows, (hreads t ht).shows, hstart.trans hsame, rfl, hle, hgrew, ?_⟩
    rw [← hdeltaEq]
    exact hpercent

/-- **A scan is a transaction.** Before every scan the samples are strictly sorted
by PID. A failed scan leaves samples, generation and total as they were, with no
retained string released. A complete one leaves exactly one sample per row, of
its instance and of the current generation, and every non-zero CPU share is over
the interval since the last complete scan before it. -/
theorem scan_transaction (lib : Arithmetic) (totalMemoryBytes : Nat) (ticksPerSecond bootTimeEpoch : Int)
    (currentUid : Nat) (history : List ScanInput) (input : ScanInput)
    (hdistinct : ∀ i ∈ history ++ [input], i.Distinct) :
    let before := scanHistory lib
      (lsmProcessBackendCreate totalMemoryBytes ticksPerSecond bootTimeEpoch currentUid) history
    let outcome := lsmProcessScan lib before.backend input
    StrictlySorted before.backend.samples ∧
    (outcome.2 = none →
      outcome.1.samples = before.backend.samples ∧ outcome.1.generation = before.backend.generation ∧
      outcome.1.previousTotalCpuTicks = before.backend.previousTotalCpuTicks ∧
      ∀ s ∈ outcome.1.samples, ∀ r ∈ owned s, r ∉ outcome.1.heap.freed) ∧
    ∀ rows, outcome.2 = some rows →
      (outcome.1.samples.map fun s => (s.pid, s.startTicks, s.generation)).Perm
        (rows.map fun row => (row.pid, row.instanceId, outcome.1.generation)) ∧
      (rows.map (·.pid)).Nodup ∧
      ∀ row ∈ rows, row.cpuPercent ≠ 0 →
        ∃ previous, before.last = some previous ∧ SharesInterval lib previous input row := by
  intro before outcome
  have hbase : Baseline before := by
    apply (Baseline.create ..).history lib history
    intro i hi
    exact hdistinct i (List.mem_append_left _ hi)
  have hinput : input.Distinct := hdistinct input (by simp)
  refine ⟨hbase.valid.sorted, ?_, ?_⟩
  · intro hfail
    obtain ⟨hsamples, hgen, htotal⟩ := lsmProcessScan_failed lib before.backend input hfail
    have howns := lsmProcessScan_failed_owns lib hbase.valid hinput hfail
    refine ⟨hsamples, hgen, htotal, ?_⟩
    intro s hs r hr
    rw [hsamples] at hs
    exact howns.live hs hr
  · intro rows hrows
    obtain ⟨total, turns, -, hturns, -, hrowsEq, hperm, -, hgen, -⟩ :=
      lsmProcessScan_complete lib hbase.valid hinput hrows
    refine ⟨?_, ?_, fun row hrow => hbase.cpuPercent lib hinput hrows hrow⟩
    · refine (hperm.map _).trans (List.Perm.of_eq ?_)
      rw [hrowsEq, hgen, after, List.map_map, List.map_map]
      apply List.map_congr_left
      intro t _
      simp only [Function.comp_apply, Turn.visit, visit_row_pid, visit_row_instanceId, visit_sample_startTicks,
        visit_sample_generation, visit_sample_pid, retained_pid]
      rfl
    · rw [hrowsEq, List.map_map]
      have hpids : turns.map ((·.pid) ∘ fun t =>
          (t.visit lib (scanContext lib before.backend input total) before.backend.samples).row) =
          turns.map Turn.pid := by
        apply List.map_congr_left
        intro t _
        exact visit_row_pid ..
      rw [hpids]
      exact hturns

/-- One process seen by two complete scans, with a failed one between them. -/
def busyScan (totalTicks cpuTicks : Nat) (sampledAt : ℚ) : ScanInput :=
  .complete {} totalTicks sampledAt [.other, .process 7 (.ofStat (.ofTicks 40 cpuTicks)) .all]

def interruptedScan : ScanInput := {busyScan 1500 350 2 with readdir := false}

theorem scan_transaction_interrupted :
    let before := scanHistory .documented (lsmProcessBackendCreate 0 100 0 0) [busyScan 1000 300 1, interruptedScan]
    ∃ rows, (lsmProcessScan .documented before.backend (busyScan 2000 800 3)).2 = some rows ∧
      rows.map (·.cpuPercent) = [50] ∧
      ∀ row ∈ rows, row.cpuPercent ≠ 0 →
        ∃ previous, before.last = some previous ∧ SharesInterval .documented previous (busyScan 2000 800 3) row := by
  intro before
  have hspec := scan_transaction .documented 0 100 0 0 [busyScan 1000 300 1, interruptedScan] (busyScan 2000 800 3)
    (by decide)
  have hshares : (lsmProcessScan .documented before.backend (busyScan 2000 800 3)).2.map
      (fun rows => rows.map (·.cpuPercent)) = some [50] := by decide +kernel
  obtain ⟨rows, hrows, hpercent⟩ := Option.map_eq_some_iff.mp hshares
  exact ⟨rows, hrows, hpercent, (hspec.2.2 rows hrows).2.2⟩

end SystemMonitor.Process
