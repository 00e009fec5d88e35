import SystemMonitor.Windows.ProcessScan

/-! A Windows scan is a transaction, while its clocks and its last allocation work.

One turn of the loop visits the sample of its PID or puts one in where it belongs
(`scanEntry_cases`), so the vector stays strictly sorted and every sample is either
an original or of this scan (`Progress`). An abandoned scan restores the backup. A
scan that runs to its end commits before it allocates the row of an empty result,
and commits the zero of a failed `GetSystemTimes` as the next baseline; where
neither happens, every share is over the interval between two consecutive
successful scans (`windows_scan_transaction`). -/
namespace SystemMonitor.WindowsScan
open Lib

abbrev StrictlySorted (samples : List LsmWindowsProcessSample) : Prop :=
  Strictly LsmWindowsProcessSample.pid samples

/-! ### One turn -/

/-- What the search for a sample leads to. -/
inductive Found (samples : List LsmWindowsProcessSample) (pid : Nat) (reserved : Bool) :
    Option (List LsmWindowsProcessSample × Nat) → Prop where
  | known (before : List LsmWindowsProcessSample) (sample : LsmWindowsProcessSample)
      (after : List LsmWindowsProcessSample) (hsamples : samples = before ++ sample :: after)
      (hpid : sample.pid = pid) : Found samples pid reserved (some (before ++ sample :: after, before.length))
  | created (before after : List LsmWindowsProcessSample) (hsamples : samples = before ++ after)
      (hbefore : ∀ x ∈ before, x.pid < pid) (hafter : ∀ x ∈ after, pid < x.pid) (hreserved : reserved = true) :
      Found samples pid reserved (some (before ++ {pid} :: after, before.length))
  | refused (hreserved : reserved = false) : Found samples pid reserved none

theorem findOrCreateSample_cases {samples : List LsmWindowsProcessSample} (h : StrictlySorted samples) (pid : Nat)
    (reserved : Bool) : Found samples pid reserved (findOrCreateSample samples pid reserved) := by
  have hkeys : ∀ i (hi : i < samples.length), (samples[i]?.map (·.pid)).getD 0 = samples[i].pid := by
    intro i hi
    rw [List.getElem?_eq_getElem hi, Option.map_some, Option.getD_some]
  have hplace : Place LsmWindowsProcessSample.pid samples pid (processSampleLowerBound samples pid) :=
    h.place hkeys pid
  unfold findOrCreateSample
  generalize processSampleLowerBound samples pid = position at hplace ⊢
  dsimp only
  cases hplace with
  | found before sample after hrows hkey hposition =>
    subst hrows hposition
    rw [if_pos (by simp [hkey])]
    exact .known before sample after rfl hkey
  | missing before after hrows hposition hbefore hafter =>
    subst hrows hposition
    have hhead : (before ++ after)[before.length]? = after.head? := by
      rw [List.getElem?_append_right (Nat.le_refl _), Nat.sub_self, List.head?_eq_getElem?]
    have hmiss : (before ++ after)[before.length]?.map (·.pid) ≠ some pid := by
      rw [hhead]
      intro hfound
      obtain ⟨x, hx, hpid⟩ := Option.map_eq_some_iff.mp hfound
      have hlt := hafter x (List.mem_of_head? hx)
      rw [hpid] at hlt
      exact Nat.lt_irrefl _ hlt
    rw [if_neg hmiss]
    cases reserved with
    | false => exact .refused rfl
    | true =>
      rw [if_pos rfl, List.take_left, List.drop_left]
      exact .created before after rfl hbefore hafter rfl

/-- What one turn does to the scan. -/
inductive Turn (lib : Arithmetic) (ctx : ScanContext) (s : ScanState) (entry : Entry) : ScanState → Prop where
  | unopened (hprocess : entry.process = none) :
      Turn lib ctx s entry {s with processes := s.processes ++ [entry.row]}
  | known (reads : ProcessReads) (before : List LsmWindowsProcessSample) (sample : LsmWindowsProcessSample)
      (after : List LsmWindowsProcessSample) (hprocess : entry.process = some reads)
      (hsamples : s.samples = before ++ sample :: after) (hpid : sample.pid = entry.pid) :
      Turn lib ctx s entry
        ⟨before ++ (populateProcessMetrics lib ctx reads entry.row sample s.accounts).sample :: after,
          (populateProcessMetrics lib ctx reads entry.row sample s.accounts).accounts,
          s.processes ++ [(populateProcessMetrics lib ctx reads entry.row sample s.accounts).row]⟩
  | created (reads : ProcessReads) (before after : List LsmWindowsProcessSample)
      (hprocess : entry.process = some reads) (hsamples : s.samples = before ++ after)
      (hbefore : ∀ x ∈ before, x.pid < entry.pid) (hafter : ∀ x ∈ after, entry.pid < x.pid)
      (hreserved : entry.sampleReserved = true) :
      Turn lib ctx s entry
        ⟨before ++ (populateProcessMetrics lib ctx reads entry.row {pid := entry.pid} s.accounts).sample :: after,
          (populateProcessMetrics lib ctx reads entry.row {pid := entry.pid} s.accounts).accounts,
          s.processes ++ [(populateProcessMetrics lib ctx reads entry.row {pid := entry.pid} s.accounts).row]⟩

theorem scanEntry_cases (lib : Arithmetic) (ctx : ScanContext) {s t : ScanState} (hsorted : StrictlySorted s.samples)
    {entry : Entry} (h : scanEntry lib ctx s entry = some t) :
    entry.rowReserved = true ∧ Turn lib ctx s entry t := by
  unfold scanEntry at h
  by_cases hrow : entry.rowReserved = false
  · rw [if_pos hrow] at h
    cases h
  · rw [if_neg hrow] at h
    refine ⟨by simpa using hrow, ?_⟩
    cases hprocess : entry.process with
    | none =>
      rw [hprocess] at h
      cases h
      exact .unopened hprocess
    | some reads =>
      rw [hprocess] at h
      have hfound := findOrCreateSample_cases hsorted entry.pid entry.sampleReserved
      generalize findOrCreateSample s.samples entry.pid entry.sampleReserved = found at h hfound
      cases hfound with
      | known before sample after hsamples hpid =>
        simp only [List.getElem?_append_right (Nat.le_refl _), Nat.sub_self, List.getElem?_cons_zero,
          Option.getD_some, List.set_append_right _ _ (Nat.le_refl _), List.set_cons_zero] at h
        cases h
        exact .known reads before sample after hprocess hsamples hpid
      | created before after hsamples hbefore hafter hreserved =>
        simp only [List.getElem?_append_right (Nat.le_refl _), Nat.sub_self, List.getElem?_cons_zero,
          Option.getD_some, List.set_append_right _ _ (Nat.le_refl _), List.set_cons_zero] at h
        cases h
        exact .created reads before after hprocess hsamples hbefore hafter hreserved
      | refused => cases h

/-! ### The loop -/

/-- A successful reading of the process's times among the entries. -/
def Shown (lib : Arithmetic) (entries : List Entry) (pid instanceId cpuTime : Nat) : Prop :=
  ∃ entry ∈ entries, ∃ reads times, entry.pid = pid ∧ entry.process = some reads ∧ reads.times = some times ∧
    times.creation = instanceId ∧ times.total lib = cpuTime

theorem Shown.mono {lib : Arithmetic} {entries more : List Entry} {pid instanceId cpuTime : Nat}
    (h : Shown lib entries pid instanceId cpuTime) (hsub : entries ⊆ more) :
    Shown lib more pid instanceId cpuTime := by
  obtain ⟨entry, hentry, rest⟩ := h
  exact ⟨entry, hsub hentry, rest⟩

/-- An instance that is not zero was read. -/
theorem processCpuTime100ns_shown (lib : Arithmetic) {entry : Entry} {entries : List Entry} (hentry : entry ∈ entries)
    {reads : ProcessReads} (hprocess : entry.process = some reads)
    (hne : (processCpuTime100ns lib reads.times).instanceId ≠ 0) :
    Shown lib entries entry.pid (processCpuTime100ns lib reads.times).instanceId
      (processCpuTime100ns lib reads.times).cpuTime := by
  cases htimes : reads.times with
  | none =>
    rw [htimes] at hne
    exact absurd rfl hne
  | some times => exact ⟨entry, hentry, reads, times, rfl, hprocess, htimes, rfl, rfl⟩

/-- A share of the system delta since an original sample of the same instance. -/
def SharesSample (lib : Arithmetic) (ctx : ScanContext) (original : List LsmWindowsProcessSample)
    (entries : List Entry) (row : LsmProcessInfo) : Prop :=
  ∃ sample ∈ original, ∃ cpuTime, sample.pid = row.pid ∧ sample.instanceId = row.instanceId ∧
    sample.instanceId ≠ 0 ∧ Shown lib entries row.pid row.instanceId cpuTime ∧ sample.cpuTime100ns ≤ cpuTime ∧
    row.cpuPercent = lsmProcessCpuTotalPercent lib (cpuTime - sample.cpuTime100ns) ctx.systemDelta

theorem cpuShare_ne_zero (lib : Arithmetic) (ctx : ScanContext) (sample : LsmWindowsProcessSample) (clock : CpuTime)
    (h : cpuShare lib ctx sample clock ≠ 0) :
    sample.instanceId ≠ 0 ∧ sample.instanceId = clock.instanceId ∧ sample.cpuTime100ns ≤ clock.cpuTime ∧
      cpuShare lib ctx sample clock =
        lsmProcessCpuTotalPercent lib (clock.cpuTime - sample.cpuTime100ns) ctx.systemDelta := by
  unfold cpuShare at h ⊢
  by_cases hsame : sameInstance sample clock.instanceId = true ∧ sample.cpuTime100ns ≤ clock.cpuTime
  · have hinstance : sample.instanceId ≠ 0 ∧ sample.instanceId = clock.instanceId := by
      simpa [sameInstance] using hsame.1
    exact ⟨hinstance.1, hinstance.2, hsame.2, if_pos hsame⟩
  · rw [if_neg hsame] at h
    exact absurd rfl h

/-- Where the loop stands after the entries in `done`. -/
structure Progress (lib : Arithmetic) (ctx : ScanContext) (original : List LsmWindowsProcessSample)
    (done : List Entry) (s : ScanState) : Prop where
  sorted : StrictlySorted s.samples
  /-- A sample is an original, or of this scan. -/
  origin : ∀ x ∈ s.samples, x ∈ original ∨ (x.generation = ctx.generation ∧ x.pid ∈ done.map Entry.pid ∧
    (x.instanceId ≠ 0 → Shown lib done x.pid x.instanceId x.cpuTime100ns))
  shares : ∀ row ∈ s.processes, row.cpuPercent ≠ 0 → SharesSample lib ctx original done row
  rows : s.processes.length = done.length

theorem Progress.start (lib : Arithmetic) (ctx : ScanContext) {samples : List LsmWindowsProcessSample}
    (h : StrictlySorted samples) (accounts : List LsmWindowsAccountCacheEntry) :
    Progress lib ctx samples [] ⟨samples, accounts, []⟩ :=
  ⟨h, fun _ hx => Or.inl hx, fun _ hrow => absurd hrow List.not_mem_nil, rfl⟩

/-- The reservations an entry needs were granted. -/
def Entry.Reserved (samples : List LsmWindowsProcessSample) (entry : Entry) : Prop :=
  entry.rowReserved = true ∧
    (entry.process.isSome = true → entry.pid ∈ samples.map LsmWindowsProcessSample.pid ∨ entry.sampleReserved = true)

instance (samples : List LsmWindowsProcessSample) (entry : Entry) : Decidable (entry.Reserved samples) :=
  inferInstanceAs (Decidable (_ ∧ _))

section
variable {lib : Arithmetic} {ctx : ScanContext} {original : List LsmWindowsProcessSample} {done : List Entry}
  {s t : ScanState} {entry : Entry}

/-- What is known of the samples after a turn that puts the visited one between the others. -/
theorem Progress.origin_visit (h : Progress lib ctx original done s) {reads : ProcessReads}
    {before after : List LsmWindowsProcessSample} {sample : LsmWindowsProcessSample}
    (hprocess : entry.process = some reads) (hpid : sample.pid = entry.pid)
    (hothers : ∀ x ∈ before ++ after, x ∈ s.samples) (x : LsmWindowsProcessSample)
    (hx : x ∈ before ++ (populateProcessMetrics lib ctx reads entry.row sample s.accounts).sample :: after) :
    x ∈ original ∨ (x.generation = ctx.generation ∧ x.pid ∈ (done ++ [entry]).map Entry.pid ∧
      (x.instanceId ≠ 0 → Shown lib (done ++ [entry]) x.pid x.instanceId x.cpuTime100ns)) := by
  have hlast : entry ∈ done ++ [entry] := by simp
  rcases List.mem_cons.mp (List.perm_middle.mem_iff.mp hx) with rfl | hother
  · refine Or.inr ⟨rfl, List.mem_map.mpr ⟨entry, hlast, hpid.symm⟩, fun hne => ?_⟩
    have hshown := processCpuTime100ns_shown lib hlast hprocess hne
    rw [← hpid] at hshown
    exact hshown
  · rcases h.origin x (hothers x hother) with horiginal | ⟨hgen, hdone, hshown⟩
    · exact Or.inl horiginal
    · refine Or.inr ⟨hgen, ?_, fun hne => (hshown hne).mono (List.subset_append_left ..)⟩
      rw [List.map_append]
      exact List.mem_append_left _ hdone

theorem Progress.shares_append (h : Progress lib ctx original done s) {row : LsmProcessInfo}
    (hrow : row.cpuPercent ≠ 0 → SharesSample lib ctx original (done ++ [entry]) row) (r : LsmProcessInfo)
    (hr : r ∈ s.processes ++ [row]) (hne : r.cpuPercent ≠ 0) : SharesSample lib ctx original (done ++ [entry]) r := by
  rcases List.mem_append.mp hr with hold | hnew
  · obtain ⟨sample, hsample, cpuTime, hpid, hinstance, hnonzero, hshown, rest⟩ := h.shares r hold hne
    exact ⟨sample, hsample, cpuTime, hpid, hinstance, hnonzero, hshown.mono (List.subset_append_left ..), rest⟩
  · cases List.mem_singleton.mp hnew
    exact hrow hne

/-- A sample the search finds is an original: its PID was not visited before. -/
theorem Progress.original_of_new (h : Progress lib ctx original done s) {sample : LsmWindowsProcessSample}
    (hsample : sample ∈ s.samples) (hnew : sample.pid ∉ done.map Entry.pid) : sample ∈ original := by
  rcases h.origin sample hsample with horiginal | ⟨-, hdone, -⟩
  · exact horiginal
  · exact absurd hdone hnew

theorem Progress.turn (h : Progress lib ctx original done s) (hnew : entry.pid ∉ done.map Entry.pid)
    (hstep : scanEntry lib ctx s entry = some t) :
    Progress lib ctx original (done ++ [entry]) t ∧ entry.Reserved original := by
  obtain ⟨hrow, hturn⟩ := scanEntry_cases lib ctx h.sorted hstep
  have hlength : ∀ row, (s.processes ++ [row]).length = (done ++ [entry]).length := by
    intro row
    rw [List.length_append, List.length_append, h.rows]
    rfl
  cases hturn with
  | unopened hprocess =>
    refine ⟨⟨h.sorted, ?_, h.shares_append fun hne => absurd rfl hne, hlength _⟩, hrow, ?_⟩
    · intro x hx
      rcases h.origin x hx with horiginal | ⟨hgen, hdone, hshown⟩
      · exact Or.inl horiginal
      · refine Or.inr ⟨hgen, ?_, fun hne => (hshown hne).mono (List.subset_append_left ..)⟩
        rw [List.map_append]
        exact List.mem_append_left _ hdone
    · intro hopened
      rw [hprocess] at hopened
      cases hopened
  | known reads before sample after hprocess hsamples hpid =>
    have hmem : sample ∈ s.samples := by
      rw [hsamples]
      simp
    have horiginal := h.original_of_new hmem (by rw [hpid]; exact hnew)
    refine ⟨⟨?_, ?_, h.shares_append fun hne => ?_, hlength _⟩, hrow, fun _ => Or.inl ?_⟩
    · have hsorted := h.sorted
      rw [hsamples] at hsorted
      apply Strictly.congr _ hsorted
      rw [List.map_append, List.map_append]
      rfl
    · apply h.origin_visit hprocess hpid
      intro x hx
      rw [hsamples]
      exact List.perm_middle.mem_iff.mpr (List.mem_cons_of_mem _ hx)
    · obtain ⟨hnonzero, hinstance, hle, hpercent⟩ :=
        cpuShare_ne_zero lib ctx sample (processCpuTime100ns lib reads.times) hne
      refine ⟨sample, horiginal, _, hpid, hinstance, hnonzero, ?_, hle, hpercent⟩
      exact processCpuTime100ns_shown lib (by simp) hprocess (hinstance ▸ hnonzero)
    · exact List.mem_map.mpr ⟨sample, horiginal, hpid⟩
  | created reads before after hprocess hsamples hbefore hafter hreserved =>
    refine ⟨⟨?_, ?_, h.shares_append fun hne => ?_, hlength _⟩, hrow, fun _ => Or.inr hreserved⟩
    · have hsorted := h.sorted
      rw [hsamples] at hsorted
      exact hsorted.insert hbefore hafter
    · apply h.origin_visit hprocess rfl
      intro x hx
      rw [hsamples]
      exact hx
    · -- A new sample has instance zero, so it has no share.
      have hshare := cpuShare_ne_zero lib ctx {pid := entry.pid} (processCpuTime100ns lib reads.times) hne
      exact absurd rfl hshare.1

end

/-- A loop that is not left early has visited every entry. -/
theorem scanEntries_progress {lib : Arithmetic} {ctx : ScanContext} {original : List LsmWindowsProcessSample}
    (entries : List Entry) {done : List Entry} {s : ScanState} (h : Progress lib ctx original done s)
    (hdistinct : ((done ++ entries).map Entry.pid).Nodup) (hcomplete : (scanEntries lib ctx s entries).2 = false) :
    Progress lib ctx original (done ++ entries) (scanEntries lib ctx s entries).1 ∧
      ∀ entry ∈ entries, entry.Reserved original := by
  induction entries generalizing done s with
  | nil =>
    rw [List.append_nil]
    exact ⟨h, fun entry hentry => absurd hentry List.not_mem_nil⟩
  | cons entry rest ih =>
    have hnew : entry.pid ∉ done.map Entry.pid := by
      rw [List.map_append, List.map_cons] at hdistinct
      have hdisjoint := (List.nodup_append.mp hdistinct).2.2
      intro hmem
      exact hdisjoint _ hmem _ (List.mem_cons_self ..) rfl
    cases hstep : scanEntry lib ctx s entry with
    | none =>
      rw [scanEntries, hstep] at hcomplete
      cases hcomplete
    | some t =>
      rw [scanEntries, hstep] at hcomplete ⊢
      obtain ⟨hnext, hreserved⟩ := h.turn hnew hstep
      rw [List.append_cons] at hdistinct ⊢
      obtain ⟨hfinal, hrest⟩ := ih hnext hdistinct hcomplete
      exact ⟨hfinal, List.forall_mem_cons.mpr ⟨hreserved, hrest⟩⟩

/-! ### One scan -/

theorem nextGeneration_ne (generation : Nat) : nextGeneration generation ≠ generation := by
  unfold nextGeneration
  split <;> omega

/-- What every backend between scans satisfies. -/
structure Valid (backend : LsmProcessBackend) : Prop where
  sorted : StrictlySorted backend.samples
  current : ∀ x ∈ backend.samples, x.generation = backend.generation

/-- A scan starts from the retained samples, none of them of its own generation. -/
theorem mem_scanSamples {backend : LsmProcessBackend} (h : Valid backend) {x : LsmWindowsProcessSample}
    (hx : x ∈ scanSamples backend) : x.generation ≠ nextGeneration backend.generation ∧
      ∃ sample ∈ backend.samples, sample.pid = x.pid ∧ sample.instanceId = x.instanceId ∧
        sample.cpuTime100ns = x.cpuTime100ns := by
  unfold scanSamples at hx
  by_cases hwrap : (backend.generation + 1) % 2 ^ 32 = 0
  · rw [if_pos hwrap] at hx
    obtain ⟨sample, hsample, rfl⟩ := List.mem_map.mp hx
    rw [nextGeneration, if_pos hwrap]
    exact ⟨Nat.zero_ne_one, sample, hsample, rfl, rfl, rfl⟩
  · rw [if_neg hwrap] at hx
    rw [h.current x hx]
    exact ⟨(nextGeneration_ne _).symm, x, hx, rfl, rfl, rfl⟩

theorem map_pid_scanSamples (backend : LsmProcessBackend) :
    (scanSamples backend).map LsmWindowsProcessSample.pid = backend.samples.map LsmWindowsProcessSample.pid := by
  unfold scanSamples
  split
  · rw [List.map_map]
    rfl
  · rfl

/-- An enumeration that names each PID at most once. -/
def ScanInput.Distinct (input : ScanInput) : Prop := (input.entries.map Entry.pid).Nodup

/-- The scan is abandoned: a reservation, the snapshot or the enumeration fails. -/
def ScanInput.Interrupted (input : ScanInput) (backend : LsmProcessBackend) : Prop :=
  input.backupReserved = false ∨ input.snapshot = false ∨ input.enumerationError = true ∨
    ¬ ∀ entry ∈ input.entries, entry.Reserved backend.samples

/-- What a call can lead to. -/
inductive Outcome (lib : Arithmetic) (backend : LsmProcessBackend) (input : ScanInput) :
    LsmProcessBackend × Option (List LsmProcessInfo) → Prop where
  | restored (accounts : List LsmWindowsAccountCacheEntry) : Outcome lib backend input ({backend with accounts}, none)
  | committed (s : ScanState) (huninterrupted : ¬ input.Interrupted backend)
      (hprogress : Progress lib (scanContext lib backend input) (scanSamples backend) input.entries s) :
      Outcome lib backend input (scanCommit lib backend input s, scanOutput input s.processes)

theorem lsmProcessScan_cases (lib : Arithmetic) {backend : LsmProcessBackend} (h : Valid backend) {input : ScanInput}
    (hdistinct : input.Distinct) : Outcome lib backend input (lsmProcessScan lib backend input) := by
  unfold lsmProcessScan
  by_cases hbackup : input.backupReserved = false
  · rw [if_pos hbackup]
    exact .restored backend.accounts
  · by_cases hsnapshot : input.snapshot = false
    · rw [if_neg hbackup, if_pos hsnapshot]
      exact .restored backend.accounts
    · rw [if_neg hbackup, if_neg hsnapshot]
      by_cases hfailed : ((scanLoop lib backend input).2 || input.enumerationError) = true
      · rw [if_pos hfailed]
        exact .restored _
      · rw [if_neg hfailed]
        rw [Bool.or_eq_true, not_or, Bool.not_eq_true, Bool.not_eq_true] at hfailed
        have hsorted : StrictlySorted (scanSamples backend) := h.sorted.congr (map_pid_scanSamples backend)
        obtain ⟨hprogress, hreserved⟩ := scanEntries_progress input.entries
          (Progress.start lib (scanContext lib backend input) hsorted backend.accounts) hdistinct hfailed.1
        refine .committed _ ?_ hprogress
        intro hinterrupted
        rcases hinterrupted with hbad | hbad | hbad | hbad
        · exact hbackup hbad
        · exact hsnapshot hbad
        · rw [hfailed.2] at hbad
          cases hbad
        · apply hbad
          intro entry hentry
          have hentryReserved := hreserved entry hentry
          rw [Entry.Reserved, map_pid_scanSamples] at hentryReserved
          exact hentryReserved

section
variable {lib : Arithmetic} {backend : LsmProcessBackend} {input : ScanInput} {s : ScanState}

/-- What a committed scan keeps was read by it. -/
theorem Progress.kept (hv : Valid backend)
    (h : Progress lib (scanContext lib backend input) (scanSamples backend) input.entries s) {x : LsmWindowsProcessSample}
    (hx : x ∈ (scanCommit lib backend input s).samples) (hne : x.instanceId ≠ 0) :
    Shown lib input.entries x.pid x.instanceId x.cpuTime100ns := by
  obtain ⟨hmem, hgen⟩ := List.mem_filter.mp hx
  rcases h.origin x hmem with horiginal | ⟨-, -, hshown⟩
  · exact absurd (of_decide_eq_true hgen) (mem_scanSamples hv horiginal).1
  · exact hshown hne

theorem Progress.valid (h : Progress lib (scanContext lib backend input) (scanSamples backend) input.entries s) :
    Valid (scanCommit lib backend input s) where
  sorted := h.sorted.sublist List.filter_sublist
  current _ hx := of_decide_eq_true (List.mem_filter.mp hx).2

/-- Rows come back unless an empty result could not be allocated. -/
theorem scanOutput_isSome (h : Progress lib (scanContext lib backend input) (scanSamples backend) input.entries s)
    (hempty : input.entries = [] → input.emptyReserved = true) : (scanOutput input s.processes).isSome = true := by
  unfold scanOutput
  by_cases hnone : s.processes = []
  · have hentries : input.entries = [] := by
      apply List.length_eq_zero_iff.mp
      rw [← h.rows, hnone]
      rfl
    rw [if_pos hnone, if_pos (hempty hentries)]
    rfl
  · rw [if_neg hnone]
    rfl

theorem mem_of_scanOutput {processes rows : List LsmProcessInfo} (hrows : scanOutput input processes = some rows)
    {row : LsmProcessInfo} (hrow : row ∈ rows) : row ∈ processes := by
  unfold scanOutput at hrows
  by_cases hnone : processes = []
  · rw [if_pos hnone] at hrows
    split at hrows <;> cases hrows
    cases hrow
  · rw [if_neg hnone] at hrows
    cases hrows
    exact (List.perm_insertionSort compareProcessIdentity processes).mem_iff.mp hrow

theorem counterDelta_ne_zero (lib : Arithmetic) {current previous : Nat}
    (h : (lib.u64CounterDelta current previous).getD 0 ≠ 0) :
    previous < current ∧ (lib.u64CounterDelta current previous).getD 0 = current - previous := by
  rw [lib.counterDelta_eq] at h ⊢
  by_cases hle : previous ≤ current
  · rw [if_pos hle, Option.getD_some] at h ⊢
    exact ⟨by omega, rfl⟩
  · rw [if_neg hle] at h
    exact absurd rfl h

/-- A system delta that is not zero comes from a successful reading. -/
theorem systemDelta_pos (h : (scanContext lib backend input).systemDelta ≠ 0) :
    ∃ times, input.systemTimes = some times ∧ backend.previousSystemCpu100ns < times.total lib ∧
      (scanContext lib backend input).systemDelta = times.total lib - backend.previousSystemCpu100ns := by
  obtain ⟨hgrew, hdelta⟩ := counterDelta_ne_zero lib h
  cases htimes : input.systemTimes with
  | none =>
    rw [htimes] at hgrew
    exact absurd hgrew (Nat.not_lt_zero _)
  | some times =>
    rw [htimes] at hgrew
    exact ⟨times, rfl, hgrew, hdelta.trans (by rw [htimes]; rfl)⟩

end

/-! ### Histories of scans -/

/-- A share of the system time between two scans, of the process time of one
instance between the same two, each from a successful reading. -/
def SharesInterval (lib : Arithmetic) (previous current : ScanInput) (row : LsmProcessInfo) : Prop :=
  ∃ previousSystem currentSystem previousCpu currentCpu,
    previous.systemTimes = some previousSystem ∧ current.systemTimes = some currentSystem ∧
    Shown lib previous.entries row.pid row.instanceId previousCpu ∧
    Shown lib current.entries row.pid row.instanceId currentCpu ∧
    previousCpu ≤ currentCpu ∧ previousSystem.total lib < currentSystem.total lib ∧
    row.cpuPercent = lsmProcessCpuTotalPercent lib (currentCpu - previousCpu)
      (currentSystem.total lib - previousSystem.total lib)

/-- What a scan may run into: it names each PID once, and unless it is abandoned
its system clock was read and its empty result can be allocated. -/
def ScanInput.Sound (s : Scanned) (input : ScanInput) : Prop :=
  input.Distinct ∧ (input.Interrupted s.backend ∨
    (input.systemTimes.isSome = true ∧ (input.entries = [] → input.emptyReserved = true)))

/-- Both baselines are those of the last scan that returned rows. -/
structure Baseline (lib : Arithmetic) (s : Scanned) : Prop where
  valid : Valid s.backend
  fresh : s.last = none → s.backend.samples = []
  system : ∀ previous, s.last = some previous →
    ∃ times, previous.systemTimes = some times ∧ times.total lib = s.backend.previousSystemCpu100ns
  shown : ∀ previous, s.last = some previous → ∀ x ∈ s.backend.samples, x.instanceId ≠ 0 →
    Shown lib previous.entries x.pid x.instanceId x.cpuTime100ns

theorem Baseline.create (lib : Arithmetic) (totalMemoryBytes : Nat) (systemTimes : Option SystemTimes) :
    Baseline lib ⟨lsmProcessBackendCreate lib totalMemoryBytes systemTimes, none⟩ where
  valid := ⟨List.Pairwise.nil, fun _ hx => absurd hx List.not_mem_nil⟩
  fresh _ := rfl
  system _ h := absurd h (Option.some_ne_none _).symm
  shown _ h := absurd h (Option.some_ne_none _).symm

section
variable {lib : Arithmetic} {s : Scanned} {input : ScanInput}

theorem Baseline.scan (h : Baseline lib s) (hsound : input.Sound s) : Baseline lib (s.scan lib input) := by
  have hcases := lsmProcessScan_cases lib h.valid hsound.1
  unfold Scanned.scan
  generalize lsmProcessScan lib s.backend input = outcome at hcases
  cases hcases with
  | restored accounts => exact ⟨⟨h.valid.sorted, h.valid.current⟩, h.fresh, h.system, h.shown⟩
  | committed t huninterrupted hprogress =>
    obtain ⟨hclock, hempty⟩ := hsound.2.resolve_left huninterrupted
    obtain ⟨times, htimes⟩ := Option.isSome_iff_exists.mp hclock
    dsimp only
    rw [if_pos (scanOutput_isSome hprogress hempty)]
    refine ⟨hprogress.valid, fun hnone => absurd hnone (Option.some_ne_none _), ?_, ?_⟩
    · intro previous hlast
      cases hlast
      refine ⟨times, htimes, ?_⟩
      simp only [scanCommit, systemCpuTime100ns, htimes, Option.map_some, Option.getD_some]
    · intro previous hlast x hx hne
      cases hlast
      exact hprogress.kept h.valid hx hne

/-- A call without an array leaves the retained state alone. -/
theorem Baseline.failed (h : Baseline lib s) (hsound : input.Sound s)
    (hnone : (lsmProcessScan lib s.backend input).2 = none) :
    (lsmProcessScan lib s.backend input).1.samples = s.backend.samples ∧
      (lsmProcessScan lib s.backend input).1.generation = s.backend.generation ∧
      (lsmProcessScan lib s.backend input).1.previousSystemCpu100ns = s.backend.previousSystemCpu100ns := by
  have hcases := lsmProcessScan_cases lib h.valid hsound.1
  generalize lsmProcessScan lib s.backend input = outcome at hcases hnone ⊢
  cases hcases with
  | restored accounts => exact ⟨rfl, rfl, rfl⟩
  | committed t huninterrupted hprogress =>
    have hsome := scanOutput_isSome hprogress (hsound.2.resolve_left huninterrupted).2
    rw [show scanOutput input t.processes = none from hnone] at hsome
    cases hsome

/-- A published share is over the interval since the last successful scan. -/
theorem Baseline.cpuPercent (h : Baseline lib s) (hsound : input.Sound s) {rows : List LsmProcessInfo}
    (hrows : (lsmProcessScan lib s.backend input).2 = some rows) {row : LsmProcessInfo} (hrow : row ∈ rows)
    (hshare : row.cpuPercent ≠ 0) : ∃ previous, s.last = some previous ∧ SharesInterval lib previous input row := by
  have hcases := lsmProcessScan_cases lib h.valid hsound.1
  generalize lsmProcessScan lib s.backend input = outcome at hcases hrows
  cases hcases with
  | restored accounts => cases hrows
  | committed t huninterrupted hprogress =>
    obtain ⟨x, hx, cpuTime, hpid, hinstance, hnonzero, hshown, hle, hpercent⟩ :=
      hprogress.shares row (mem_of_scanOutput hrows hrow) hshare
    obtain ⟨-, sample, hsample, hsamplePid, hsampleInstance, hsampleCpu⟩ := mem_scanSamples h.valid hx
    have hdelta : (scanContext lib s.backend input).systemDelta ≠ 0 := by
      intro hzero
      rw [hpercent, hzero, lsmProcessCpuTotalPercent, lib.percent_eq, if_pos rfl] at hshare
      exact hshare rfl
    obtain ⟨times, htimes, hgrew, hdeltaEq⟩ := systemDelta_pos hdelta
    cases hlast : s.last with
    | none =>
      rw [h.fresh hlast] at hsample
      cases hsample
    | some previous =>
      obtain ⟨previousTimes, hprevious, htotal⟩ := h.system previous hlast
      have hbefore := h.shown previous hlast sample hsample (by rw [hsampleInstance]; exact hnonzero)
      rw [hsamplePid, hsampleInstance, hsampleCpu, hpid, hinstance] at hbefore
      refine ⟨previous, rfl, previousTimes, times, x.cpuTime100ns, cpuTime, hprevious, htimes, hbefore, hshown, hle, ?_⟩
      rw [htotal, ← hdeltaEq]
      exact ⟨hgrew, hpercent⟩

end

/-- **A Windows scan is a transaction with matched intervals.** Before every scan
the samples are strictly sorted by PID; a call that returns no array leaves
samples, generation and system time as they were; and every non-zero share is
over the interval since the last successful scan, all four readings successful.
Every scan of the run names each PID once and, unless it is abandoned, read the
system clock and can allocate an empty result. -/
theorem windows_scan_transaction (lib : Arithmetic) (totalMemoryBytes : Nat) (systemTimes : Option SystemTimes)
    (history : List ScanInput) (input : ScanInput) (s : Scanned)
    (hrun : (scans lib).run ⟨lsmProcessBackendCreate lib totalMemoryBytes systemTimes, none⟩ history = some s)
    (hhistory : (scans lib).Admissible (fun s input => input.Sound s)
      ⟨lsmProcessBackendCreate lib totalMemoryBytes systemTimes, none⟩ history)
    (hsound : input.Sound s) :
    let outcome := lsmProcessScan lib s.backend input
    StrictlySorted s.backend.samples ∧
    (outcome.2 = none → outcome.1.samples = s.backend.samples ∧ outcome.1.generation = s.backend.generation ∧
      outcome.1.previousSystemCpu100ns = s.backend.previousSystemCpu100ns) ∧
    ∀ rows, outcome.2 = some rows → ∀ row ∈ rows, row.cpuPercent ≠ 0 →
      ∃ previous, s.last = some previous ∧ SharesInterval lib previous input row := by
  intro outcome
  have hbase : Baseline lib s := by
    apply (scans lib).run_invariant (fun s input => input.Sound s) (Baseline lib) _
      (Baseline.create lib totalMemoryBytes systemTimes) hhistory hrun
    intro s input t h hrule hstep
    cases hstep
    exact h.scan hrule
  exact ⟨hbase.valid.sorted, hbase.failed hsound, fun rows hrows row hrow => hbase.cpuPercent hsound hrows hrow⟩

/-- An opened process of which only the times can be read. -/
def Entry.timed (pid creation cpuTime : Nat) : Entry where
  pid
  ppid := 4
  threads := 1
  name := .empty
  rowReserved := true
  process := some ⟨some ⟨creation, cpuTime, 0⟩, none, none, none, none, none, none⟩
  sampleReserved := true

/-- One process, seen beside the system clock. -/
def busyScan (systemTimes : Option SystemTimes) (cpuTime : Nat) : ScanInput where
  systemTimes
  tickCount := 1000
  systemTime := 0
  entries := [{Entry.timed 4 0 0 with process := none}, .timed 7 40 cpuTime]

instance (input : ScanInput) : Decidable input.Distinct := inferInstanceAs (Decidable (List.Nodup _))

instance (input : ScanInput) (backend : LsmProcessBackend) : Decidable (input.Interrupted backend) :=
  inferInstanceAs (Decidable (_ ∨ _))

instance (entries : List Entry) : Decidable (entries = []) := decidable_of_iff (entries.isEmpty = true) List.isEmpty_iff

instance (s : Scanned) (input : ScanInput) : Decidable (input.Sound s) := inferInstanceAs (Decidable (_ ∧ _))

def freshBackend : LsmProcessBackend := lsmProcessBackendCreate .documented 0 (some ⟨500, 0⟩)

/-- A scan without a snapshot and without a clock, between two that succeed. -/
def busyHistory : List ScanInput := [busyScan (some ⟨1000, 0⟩) 300, {busyScan none 350 with snapshot := false}]

/-- The shares of the rows a call returns. -/
def shares (outcome : LsmProcessBackend × Option (List LsmProcessInfo)) : Option (List ℚ) :=
  outcome.2.map fun rows => rows.map (·.cpuPercent)

theorem windows_scan_transaction_interrupted :
    ∃ s, (scans .documented).run ⟨freshBackend, none⟩ busyHistory = some s ∧
      ∃ rows, (lsmProcessScan .documented s.backend (busyScan (some ⟨2000, 0⟩) 800)).2 = some rows ∧
        rows.map (·.cpuPercent) = [0, 50] ∧ ∀ row ∈ rows, row.cpuPercent ≠ 0 → ∃ previous, s.last = some previous ∧
          SharesInterval .documented previous (busyScan (some ⟨2000, 0⟩) 800) row := by
  have hend : ∃ s, (scans .documented).run ⟨freshBackend, none⟩ busyHistory = some s ∧
      (busyScan (some ⟨2000, 0⟩) 800).Sound s ∧
      shares (lsmProcessScan .documented s.backend (busyScan (some ⟨2000, 0⟩) 800)) = some [0, 50] :=
    (scans .documented).run_decided (by decide +kernel)
  obtain ⟨s, hrun, hsound, hshares⟩ := hend
  have hspec := windows_scan_transaction .documented 0 (some ⟨500, 0⟩) busyHistory (busyScan (some ⟨2000, 0⟩) 800) s
    hrun (by decide) hsound
  obtain ⟨rows, hrows, hpercent⟩ := Option.map_eq_some_iff.mp hshares
  exact ⟨s, hrun, rows, hrows, hpercent, hspec.2.2 rows hrows⟩

/-- Nothing to list, and no memory for the row of an empty result. -/
def unallocatedScan : ScanInput where
  systemTimes := some ⟨900, 0⟩
  tickCount := 1000
  systemTime := 0
  entries := []
  emptyReserved := false

/-- A call that returns nothing has committed, and a share is over a clock that
was never read. -/
theorem windows_scan_unmatched :
    (unallocatedScan.Distinct ∧ (lsmProcessScan .documented freshBackend unallocatedScan).2 = none ∧
      (lsmProcessScan .documented freshBackend unallocatedScan).1.generation ≠ freshBackend.generation ∧
      (lsmProcessScan .documented freshBackend unallocatedScan).1.previousSystemCpu100ns ≠
        freshBackend.previousSystemCpu100ns) ∧
    (∀ input ∈ [busyScan none 300, busyScan (some ⟨1000, 0⟩) 350], input.Distinct) ∧
    ∃ s, (scans .documented).run ⟨freshBackend, none⟩ [busyScan none 300] = some s ∧
      ∃ rows, (lsmProcessScan .documented s.backend (busyScan (some ⟨1000, 0⟩) 350)).2 = some rows ∧
        ∃ row ∈ rows, row.cpuPercent = 5 ∧ ¬ ∃ previous, s.last = some previous ∧
          SharesInterval .documented previous (busyScan (some ⟨1000, 0⟩) 350) row := by
  have hend : ∃ s, (scans .documented).run ⟨freshBackend, none⟩ [busyScan none 300] = some s ∧
      (∀ previous ∈ s.last, previous.systemTimes = none) ∧
      shares (lsmProcessScan .documented s.backend (busyScan (some ⟨1000, 0⟩) 350)) = some [0, 5] :=
    (scans .documented).run_decided (by decide +kernel)
  obtain ⟨s, hrun, hclock, hshares⟩ := hend
  obtain ⟨rows, hrows, hpercent⟩ := Option.map_eq_some_iff.mp hshares
  refine ⟨by decide, by decide, s, hrun, rows, hrows, ?_⟩
  obtain ⟨row, hrow, hfive⟩ := List.mem_map.mp (show (5 : ℚ) ∈ rows.map (·.cpuPercent) by rw [hpercent]; simp)
  refine ⟨row, hrow, hfive, ?_⟩
  intro hshares
  obtain ⟨previous, hlast, previousSystem, -, -, -, hprevious, -⟩ := hshares
  rw [hclock previous hlast] at hprevious
  cases hprevious

end SystemMonitor.WindowsScan
