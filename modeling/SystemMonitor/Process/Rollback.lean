import SystemMonitor.Process.Scan

/-! What one turn of the scan loop can do, and why a failed scan is undone.

`scanEntry_cases` says once what a directory entry leads to. From it, whatever
the enumeration yields and in whatever order, undoing the journal gives the
original vector back with the appended samples behind it (`Journalled`), so a
rolled-back scan leaves the samples as they were. -/
namespace SystemMonitor.Process
open Lib Journal

/-! ### What a visit never changes -/

section
variable (lib : Arithmetic) (ctx : ScanContext)

theorem lsmProcessEnrich_pid (reads : ProcReads) (row : LsmProcessInfo) (flags : ScanFlags) :
    (lsmProcessEnrich reads row flags).1.pid = row.pid ∧
      (lsmProcessEnrich reads row flags).1.instanceId = row.instanceId := by
  unfold lsmProcessEnrich
  repeat' split
  all_goals exact ⟨rfl, rfl⟩

theorem enrichRow_pid (reads : ProcReads) (sample : PreviousProcessSample) (row : LsmProcessInfo) :
    (enrichRow ctx reads sample row).pid = row.pid ∧
      (enrichRow ctx reads sample row).instanceId = row.instanceId := by
  simp only [enrichRow]
  split
  · exact lsmProcessEnrich_pid ..
  · exact ⟨rfl, rfl⟩

variable (pid : Nat) (stat : LinuxProcessStat) (reads : ProcReads) (alloc : Allocations)
  (sample : PreviousProcessSample) (heap : Heap)

theorem visit_row_pid : (visit lib ctx pid stat reads alloc sample heap).row.pid = pid :=
  (enrichRow_pid ..).1

theorem visit_row_instanceId :
    (visit lib ctx pid stat reads alloc sample heap).row.instanceId = stat.startTicks :=
  (enrichRow_pid ..).2

@[simp] theorem visit_sample_pid : (visit lib ctx pid stat reads alloc sample heap).sample.pid = sample.pid := rfl

@[simp] theorem visit_sample_startTicks :
    (visit lib ctx pid stat reads alloc sample heap).sample.startTicks = stat.startTicks := rfl

@[simp] theorem visit_sample_generation :
    (visit lib ctx pid stat reads alloc sample heap).sample.generation = ctx.generation := rfl

end

theorem sameProcess_iff (sample : PreviousProcessSample) (instanceId : Nat) :
    sameProcess sample instanceId = true ↔ sample.startTicks = instanceId ∧ sample.startTicks ≠ 0 := by
  simp [sameProcess]

/-- A non-zero share needs a sample of the same instance and a total that grew. -/
theorem cpuShare_ne_zero (lib : Arithmetic) (ctx : ScanContext) (sample : PreviousProcessSample)
    (stat : LinuxProcessStat) (h : cpuShare lib ctx sample stat ≠ 0) :
    sample.startTicks = stat.startTicks ∧ sample.startTicks ≠ 0 ∧ 0 < ctx.totalDelta ∧
      sample.cpuTicks ≤ stat.cpuTicks ∧
      cpuShare lib ctx sample stat =
        lsmProcessCpuTotalPercent lib (stat.cpuTicks - sample.cpuTicks) ctx.totalDelta := by
  unfold cpuShare at h ⊢
  by_cases hguard : (sameProcess sample stat.startTicks && decide (0 < ctx.totalDelta)) = true
  · rw [if_pos hguard] at h ⊢
    simp only [Bool.and_eq_true, decide_eq_true_eq, sameProcess, beq_iff_eq, bne_iff_ne] at hguard
    rw [lib.counterDelta_eq] at h ⊢
    by_cases hle : sample.cpuTicks ≤ stat.cpuTicks
    · rw [if_pos hle]
      exact ⟨hguard.1.1, hguard.1.2, hguard.2, hle, rfl⟩
    · rw [if_neg hle] at h
      exact absurd rfl h
  · rw [if_neg hguard] at h
    exact absurd rfl h

/-! ### One turn -/

/-- The sample found is the one at the index, and it is of the PID. -/
theorem findOrCreateSample_cases {samples : List PreviousProcessSample} {searchableCount pid : Nat}
    {reserved : Bool} {found : Found} (h : findOrCreateSample samples searchableCount pid reserved = some found) :
    (found.samples = samples ∧ samples[found.index]? = some found.sample ∧ found.index < searchableCount ∧
      found.sample.pid = pid) ∨
    found = ⟨samples ++ [{pid := pid}], samples.length, {pid := pid}⟩ := by
  simp only [findOrCreateSample] at h
  generalize lowerBound (pidAt samples) pid searchableCount 0 searchableCount = low at h
  have hcreate (h : (if reserved then some (⟨samples ++ [{pid := pid}], samples.length, {pid := pid}⟩ : Found)
      else none) = some found) : found = ⟨samples ++ [{pid := pid}], samples.length, {pid := pid}⟩ := by
    by_cases hreserved : reserved
    · rw [if_pos hreserved] at h
      exact (Option.some_inj.mp h).symm
    · rw [if_neg hreserved] at h
      cases h
  cases hlow : samples[low]? with
  | none =>
    rw [hlow] at h
    exact Or.inr (hcreate h)
  | some sample =>
    rw [hlow] at h
    by_cases hhit : low < searchableCount ∧ sample.pid = pid
    · simp only [hhit, and_self, if_true, Option.some.injEq] at h
      subst h
      exact Or.inl ⟨rfl, hlow, hhit.1, hhit.2⟩
    · simp only [hhit, if_false] at h
      exact Or.inr (hcreate h)

/-- The PIDs of the searched prefix, whatever was appended. -/
theorem pidAt_of_map {samples original : List PreviousProcessSample} {appended : List Nat}
    (hpids : samples.map (·.pid) = original.map (·.pid) ++ appended) {i : Nat} {o : PreviousProcessSample}
    (hi : original[i]? = some o) : pidAt samples i = o.pid := by
  have hlt : i < (original.map (·.pid)).length := by
    rw [List.length_map]
    exact (List.getElem?_eq_some_iff.mp hi).1
  have : (samples.map (·.pid))[i]? = some o.pid := by
    rw [hpids, List.getElem?_append_left hlt, List.getElem?_map, hi]
    rfl
  rw [List.getElem?_map] at this
  unfold pidAt
  rw [this]
  rfl

/-- An unknown PID is appended. -/
theorem findOrCreateSample_new {samples original : List PreviousProcessSample} {appended : List Nat}
    (hpids : samples.map (·.pid) = original.map (·.pid) ++ appended) {pid : Nat}
    (hnew : pid ∉ original.map (·.pid)) (reserved : Bool) :
    findOrCreateSample samples original.length pid reserved =
      if reserved then some ⟨samples ++ [{pid := pid}], samples.length, {pid := pid}⟩ else none := by
  simp only [findOrCreateSample]
  generalize lowerBound (pidAt samples) pid original.length 0 original.length = low
  cases hlow : samples[low]? with
  | none => rfl
  | some sample =>
    have hmiss : ¬(low < original.length ∧ sample.pid = pid) := by
      intro hpair
      obtain ⟨hlt, rfl⟩ := hpair
      apply hnew
      have := pidAt_of_map hpids (List.getElem?_eq_getElem hlt)
      unfold pidAt at this
      rw [hlow] at this
      exact List.mem_map.mpr ⟨_, List.getElem_mem hlt, this.symm⟩
    simp only [hmiss, if_false]

/-- The loop's variables after a visit. -/
def visited (lib : Arithmetic) (ctx : ScanContext) (searchableCount : Nat) (s : ScanState) (pid : Nat)
    (reads : ProcReads) (alloc : Allocations) (stat : LinuxProcessStat) (found : Found) : ScanState :=
  let v := visit lib ctx pid stat reads alloc found.sample s.heap
  { samples := found.samples.set found.index v.sample
    heap := v.heap
    mutations := if found.index < searchableCount
      then s.mutations ++ [(found.index, found.sample)] else s.mutations
    processes := s.processes ++ [v.row] }

/-- An entry fails, or shows no process, or is visited. -/
theorem scanEntry_cases (lib : Arithmetic) (ctx : ScanContext) (searchableCount : Nat) (s : ScanState)
    (entry : DirEntry) :
    scanEntry lib ctx searchableCount s entry = (s, true) ∨
    (scanEntry lib ctx searchableCount s entry = (s, false) ∧
      ∀ pid reads alloc, entry = .process pid reads alloc → reads.stat = none) ∨
    ∃ pid reads alloc stat found, entry = .process pid reads alloc ∧ alloc.row = true ∧ reads.stat = some stat ∧
      findOrCreateSample s.samples searchableCount pid alloc.sample = some found ∧
      scanEntry lib ctx searchableCount s entry =
        (visited lib ctx searchableCount s pid reads alloc stat found, false) := by
  cases entry with
  | other =>
    refine Or.inr (Or.inl ⟨rfl, ?_⟩)
    intro pid reads alloc h
    cases h
  | process pid reads alloc =>
    simp only [scanEntry]
    by_cases hrow : alloc.row
    · rw [hrow]
      cases hstat : reads.stat with
      | none =>
        refine Or.inr (Or.inl ⟨rfl, ?_⟩)
        intro pid' reads' alloc' h
        cases h
        exact hstat
      | some stat =>
        cases hfound : findOrCreateSample s.samples searchableCount pid alloc.sample with
        | none => exact Or.inl rfl
        | some found => exact Or.inr (Or.inr ⟨pid, reads, alloc, stat, found, rfl, hrow, hstat, hfound, rfl⟩)
    · simp [hrow]

/-! ### The journal -/

/-- The journal restores the original vector; what was appended stays behind it. -/
structure Journalled (original : List PreviousProcessSample) (s : ScanState) : Prop where
  undone : undo s.samples s.mutations.reverse = original ++ s.samples.drop original.length
  within : ∀ m ∈ s.mutations, m.1 < original.length
  grown : original.length ≤ s.samples.length
  pids : ∃ appended, s.samples.map (·.pid) = original.map (·.pid) ++ appended

theorem Journalled.start (original : List PreviousProcessSample) (heap : Heap) :
    Journalled original {samples := original, heap} where
  undone := by simp [undo]
  within m hm := absurd hm List.not_mem_nil
  grown := Nat.le_refl _
  pids := ⟨[], by simp⟩

section
variable {lib : Arithmetic} {ctx : ScanContext} {original : List PreviousProcessSample} {s : ScanState}

theorem Journalled.visited (h : Journalled original s) {pid : Nat} (reads : ProcReads) (alloc : Allocations)
    (stat : LinuxProcessStat) {found : Found}
    (hfound : findOrCreateSample s.samples original.length pid alloc.sample = some found) :
    Journalled original (visited lib ctx original.length s pid reads alloc stat found) := by
  obtain ⟨appended, hpids⟩ := h.pids
  rcases findOrCreateSample_cases hfound with ⟨hsamples, hplace, hlt, -⟩ | rfl
  · refine ⟨?_, ?_, ?_, appended, ?_⟩
    · simp only [Process.visited, hlt, if_true, hsamples, List.reverse_append, List.reverse_singleton,
        List.singleton_append]
      rw [undo_set _ _ hplace, h.undone, List.drop_set_of_lt hlt]
    · intro m hm
      simp only [Process.visited, hlt, if_true, List.mem_append, List.mem_singleton] at hm
      rcases hm with hm | rfl
      · exact h.within m hm
      · exact hlt
    · simp only [Process.visited, hsamples, List.length_set]
      exact h.grown
    · obtain ⟨hbound, hget⟩ := List.getElem?_eq_some_iff.mp hplace
      have hsame : s.samples.set found.index found.sample = s.samples := by rw [← hget, List.set_getElem_self]
      simp only [Process.visited, hsamples, List.map_set, visit_sample_pid]
      rw [← List.map_set, hsame, hpids]
  · have hlong : ¬ s.samples.length < original.length := Nat.not_lt.mpr h.grown
    have hset (w v : PreviousProcessSample) : (s.samples ++ [w]).set s.samples.length v = s.samples ++ [v] := by simp
    refine ⟨?_, ?_, ?_, appended ++ [pid], ?_⟩
    · simp only [Process.visited, hlong, if_false, hset]
      rw [undo_append, h.undone, List.drop_append_of_le_length h.grown, List.append_assoc]
      intro m hm
      exact Nat.lt_of_lt_of_le (h.within m (List.mem_reverse.mp hm)) h.grown
    · simp only [Process.visited, hlong, if_false]
      exact h.within
    · simp only [Process.visited, hset, List.length_append]
      exact Nat.le_add_right_of_le h.grown
    · simp only [Process.visited, hset, List.map_append, hpids, List.append_assoc]
      rfl

theorem Journalled.entry (h : Journalled original s) (entry : DirEntry) :
    Journalled original (scanEntry lib ctx original.length s entry).1 := by
  rcases scanEntry_cases lib ctx original.length s entry with
    hfail | ⟨hskip, -⟩ | ⟨pid, reads, alloc, stat, found, -, -, -, hfound, hvisit⟩
  · rw [hfail]
    exact h
  · rw [hskip]
    exact h
  · rw [hvisit]
    exact h.visited reads alloc stat hfound

theorem Journalled.entries (h : Journalled original s) (entries : List DirEntry) :
    Journalled original (scanEntries lib ctx original.length s entries).1 := by
  induction entries generalizing s with
  | nil => exact h
  | cons entry rest ih =>
    simp only [scanEntries]
    by_cases hfail : (scanEntry lib ctx original.length s entry).2
    · rw [if_pos hfail]
      exact h.entry entry
    · rw [if_neg hfail]
      exact ih (h.entry entry)

end

theorem rollbackLoop_samples (samples : List PreviousProcessSample) (heap : Heap)
    (mutations : List PreviousProcessMutation) : (rollbackLoop samples heap mutations).1 = undo samples mutations := by
  induction mutations generalizing samples heap with
  | nil => rfl
  | cons mutation older ih =>
    simp only [rollbackLoop, undo, ih, rollbackMutation]
    cases hcurrent : samples[mutation.1]? with
    | none => rw [List.set_eq_of_length_le (List.getElem?_eq_none_iff.mp hcurrent)]
    | some current => rfl

/-! ### The exits of a scan -/

theorem scanRollback_samples {backend : LsmProcessBackend} {s : ScanState} (h : Journalled backend.samples s) :
    (scanRollback backend s).samples = backend.samples := by
  show (rollbackLoop s.samples s.heap s.mutations.reverse).1.take backend.samples.length = backend.samples
  rw [rollbackLoop_samples, h.undone, List.take_left]

/-- A complete scan keeps the samples of its generation, sorted again or in place. -/
theorem scanCommit_samples (backend : LsmProcessBackend) (s : ScanState) (generation total : Nat) :
    (scanCommit backend s generation total).samples =
      sortSamples (s.samples.filter fun x => x.generation = generation) ∨
    (scanCommit backend s generation total).samples = s.samples.filter (fun x => x.generation = generation) ∧
      ¬(backend.samples.length < s.samples.length ∧
        1 < (s.samples.filter fun x => x.generation = generation).length) := by
  by_cases hsort : backend.samples.length < s.samples.length ∧
      1 < (s.samples.filter fun x => x.generation = generation).length
  · exact Or.inl (if_pos hsort)
  · exact Or.inr ⟨if_neg hsort, hsort⟩

theorem sortSamples_perm (samples : List PreviousProcessSample) : (sortSamples samples).Perm samples :=
  List.perm_insertionSort _ _

theorem scanCommit_perm (backend : LsmProcessBackend) (s : ScanState) (generation total : Nat) :
    (scanCommit backend s generation total).samples.Perm
      (s.samples.filter fun x => x.generation = generation) := by
  rcases scanCommit_samples backend s generation total with hsort | ⟨hsame, -⟩
  · rw [hsort]
    exact sortSamples_perm _
  · rw [hsame]

/-- Before the loop, after a failure in it, or complete. -/
theorem lsmProcessScan_cases (lib : Arithmetic) (backend : LsmProcessBackend) (input : ScanInput) :
    lsmProcessScan lib backend input = (backend, none) ∨
    ∃ total, input.currentTotalTicks = some total ∧
      (lsmProcessScan lib backend input = (scanRollback backend (scanLoop lib backend input total).1, none) ∨
      ((scanLoop lib backend input total).2 = false ∧ lsmProcessScan lib backend input =
        (scanCommit backend (scanLoop lib backend input total).1 (nextGeneration backend.generation) total,
          some (scanLoop lib backend input total).1.processes))) := by
  unfold lsmProcessScan
  cases input.currentTotalTicks with
  | none => exact Or.inl rfl
  | some total =>
    simp only
    split
    · exact Or.inl rfl
    · refine Or.inr ⟨total, rfl, ?_⟩
      split
      · exact Or.inl rfl
      · rename_i hcomplete
        simp only [Bool.or_eq_true, not_or, Bool.not_eq_true] at hcomplete
        exact Or.inr ⟨hcomplete.1.1, rfl⟩

/-- A failed scan leaves the retained state as it was. -/
theorem lsmProcessScan_failed (lib : Arithmetic) (backend : LsmProcessBackend) (input : ScanInput)
    (hfail : (lsmProcessScan lib backend input).2 = none) :
    (lsmProcessScan lib backend input).1.samples = backend.samples ∧
    (lsmProcessScan lib backend input).1.generation = backend.generation ∧
    (lsmProcessScan lib backend input).1.previousTotalCpuTicks = backend.previousTotalCpuTicks := by
  rcases lsmProcessScan_cases lib backend input with hearly | ⟨total, -, hrolled | ⟨-, hdone⟩⟩
  · rw [hearly]
    exact ⟨rfl, rfl, rfl⟩
  · rw [hrolled]
    exact ⟨scanRollback_samples ((Journalled.start _ _).entries input.entries), rfl, rfl⟩
  · rw [hdone] at hfail
    cases hfail

end SystemMonitor.Process
