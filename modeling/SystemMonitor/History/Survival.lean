import SystemMonitor.History.Dirty

/-! What becomes of the rows of the file at start-up.

Saves wait until the load has been merged, so what the file held is in the table
before the table replaces the file; from then on totals only grow. The rows that
a limit of 4096 entries leaves out are the only ones that go, unless the load
fails: then nothing was merged, saves go on, and the first of them replaces a
file that was never read. -/
namespace SystemMonitor.History
open Lib Process

/-! ### The rows of a file -/

def wellFormedRow (numerals : Numerals) (line : Text) : Option LsmHistoryEntry :=
  if line = [] ∨ line.head? = some 35 then none else loadedEntry numerals (Lines.strsplit 9 11 line)

/-- Every row that parses, however many there are. -/
def wellFormedRows (numerals : Numerals) (file : Option Text) : List LsmHistoryEntry :=
  match file with
  | none => []
  | some bytes =>
    Lines.foldLines lineRoom (fun rows line => rows ++ (wellFormedRow numerals line).toList) id bytes.length [] bytes

section
variable {numerals : Numerals} {bytes : Text}

/-- A row that is skipped leaves the loader's table alone. -/
theorem historyLoadRecord_skipped (walk : Walk LsmHistoryEntry) {line : Text} (h : wellFormedRow numerals line = none)
    (s : LsmHistoryState) : (historyLoadRecord numerals walk s line).1 = s := by
  unfold wellFormedRow at h
  unfold historyLoadRecord
  by_cases hskip : line = [] ∨ line.head? = some 35
  · rw [if_pos hskip]
  · rw [if_neg hskip] at h ⊢
    rw [h]

theorem Keeps.wellFormedRow (walk : Walk LsmHistoryEntry) {rows : List LsmHistoryEntry} {acc : LsmHistoryState × Bool}
    (h : (rows.map LsmHistoryEntry.key).Nodup → Keeps rows acc) (line : Text)
    (hdistinct : ((rows ++ (wellFormedRow numerals line).toList).map LsmHistoryEntry.key).Nodup) :
    Keeps (rows ++ (wellFormedRow numerals line).toList) (historyLoadLine numerals walk acc line) := by
  cases hrow : History.wellFormedRow numerals line with
  | none =>
    rw [hrow, Option.toList_none, List.append_nil] at hdistinct
    rw [Option.toList_none, List.append_nil]
    have hsame := historyLoadRecord_skipped walk hrow acc.1
    refine ⟨?_, ?_⟩
    · simp only [historyLoadLine, hsame]
      exact (h hdistinct).counted
    · simp only [historyLoadLine, hsame]
      exact (h hdistinct).newest
  | some e =>
    rw [hrow, Option.toList_some, List.map_append, List.nodup_append] at hdistinct
    unfold History.wellFormedRow at hrow
    split at hrow
    · cases hrow
    · rename_i hline
      apply (h hdistinct.1).line walk hline hrow
      intro hmem
      exact hdistinct.2.2 _ hmem e.key (by simp) rfl

/-- The loader keeps the most recent rows of a file whose keys are distinct. -/
theorem historyLoadPath_rows (walk : Walk LsmHistoryEntry)
    (hdistinct : ((wellFormedRows numerals (some bytes)).map LsmHistoryEntry.key).Nodup) :
    Recent (wellFormedRows numerals (some bytes)) (historyLoadPath numerals walk bytes).1.appHistory.rows := by
  have hkeeps : ((wellFormedRows numerals (some bytes)).map LsmHistoryEntry.key).Nodup →
      Keeps (wellFormedRows numerals (some bytes)) (historyLoadPath numerals walk bytes) := by
    apply Lines.foldLines_relate (fun (acc : LsmHistoryState × Bool) (rows : List LsmHistoryEntry) =>
      (rows.map LsmHistoryEntry.key).Nodup → Keeps rows acc)
    · intro acc rows line _ h hnodup
      exact Keeps.wellFormedRow walk h line hnodup
    · intro acc rows h hnodup
      exact ⟨(h hnodup).counted, (h hnodup).newest⟩
    · intro _
      exact ⟨rfl, Newest.refl List.nodup_nil (Nat.zero_le _)⟩
  exact (hkeeps hdistinct).newest

end

/-! ### Totals -/

/-- The ranges that adding up relies on. -/
structure Ranged (e : LsmHistoryEntry) : Prop where
  readBytes : e.readBytes ≤ uint64Max
  writeBytes : e.writeBytes ≤ uint64Max
  cpuSeconds : 0 ≤ e.cpuSeconds
  activeSeconds : 0 ≤ e.activeSeconds

/-- An entry of the row's key whose totals are at least the row's. -/
structure AtLeast (row e : LsmHistoryEntry) : Prop where
  key : e.key = row.key
  cpuSeconds : row.cpuSeconds ≤ e.cpuSeconds
  activeSeconds : row.activeSeconds ≤ e.activeSeconds
  readBytes : row.readBytes ≤ e.readBytes
  writeBytes : row.writeBytes ≤ e.writeBytes
  peakRssBytes : row.peakRssBytes ≤ e.peakRssBytes
  ranged : Ranged e

theorem FromFile.ranged {e : LsmHistoryEntry} (h : FromFile e) : Ranged e :=
  ⟨h.typed.counters.1, h.typed.counters.2.1, h.typed.seconds.1, h.typed.seconds.2⟩

theorem AtLeast.refl {row : LsmHistoryEntry} (h : Ranged row) : AtLeast row row :=
  ⟨rfl, le_refl _, le_refl _, Nat.le_refl _, Nat.le_refl _, Nat.le_refl _, h⟩

theorem AtLeast.trans {row e f : LsmHistoryEntry} (h : AtLeast row e) (h' : AtLeast e f) : AtLeast row f :=
  ⟨h'.key.trans h.key, le_trans h.cpuSeconds h'.cpuSeconds, le_trans h.activeSeconds h'.activeSeconds,
    Nat.le_trans h.readBytes h'.readBytes, Nat.le_trans h.writeBytes h'.writeBytes,
    Nat.le_trans h.peakRssBytes h'.peakRssBytes, h'.ranged⟩

section
variable (lib : Arithmetic)

theorem beginLive_atLeast {e : LsmHistoryEntry} (h : Ranged e) (generation : Nat) {elapsed : ℚ} (helapsed : 0 ≤ elapsed) :
    AtLeast e (beginLive generation elapsed e) := by
  unfold beginLive
  split
  · refine ⟨rfl, le_refl _, ?_, Nat.le_refl _, Nat.le_refl _, Nat.le_refl _, h.readBytes, h.writeBytes, h.cpuSeconds, ?_⟩
    · exact le_add_of_nonneg_right helapsed
    · exact add_nonneg h.activeSeconds helapsed
  · exact AtLeast.refl h

theorem addRss_atLeast {e : LsmHistoryEntry} (h : Ranged e) (rssBytes : Nat) : AtLeast e (addRss lib e rssBytes) := by
  refine ⟨rfl, le_refl _, le_refl _, Nat.le_refl _, Nat.le_refl _, ?_, h.readBytes, h.writeBytes, h.cpuSeconds,
    h.activeSeconds⟩
  simp only [addRss]
  split
  · rename_i hless
    exact Nat.le_of_lt hless
  · exact Nat.le_refl _

theorem creditEntry_atLeast {e : LsmHistoryEntry} (h : Ranged e) (nowEpoch : Int) (process : LsmProcessInfo)
    (deltas : Deltas) : AtLeast e (creditEntry lib nowEpoch process deltas e) := by
  have hcpu : (0 : ℚ) ≤ (deltas.cpu : ℚ) / 1000000000 := by positivity
  exact ⟨rfl, le_add_of_nonneg_right hcpu, le_refl _, lib.le_addSaturating _ h.readBytes,
    lib.le_addSaturating _ h.writeBytes, Nat.le_refl _, lib.addSaturating_le _ _, lib.addSaturating_le _ _,
    add_nonneg h.cpuSeconds hcpu, h.activeSeconds⟩

/-- Accounting a reading only adds. -/
theorem accountedEntry_atLeast {e : LsmHistoryEntry} (h : Ranged e) (generation : Nat) {elapsed : ℚ}
    (helapsed : 0 ≤ elapsed) (nowEpoch : Int) (samples : Samples) (process : LsmProcessInfo) :
    AtLeast e (accountedEntry lib generation elapsed nowEpoch samples process e) := by
  have hlive := beginLive_atLeast h generation helapsed
  have hrss := addRss_atLeast lib hlive.ranged process.rssBytes
  exact (hlive.trans hrss).trans (creditEntry_atLeast lib hrss.ranged nowEpoch process _)

/-- A merge gives at least what was loaded. -/
theorem mergeEntry_atLeast {current loaded : LsmHistoryEntry} (hcurrent : Ranged current) (hloaded : FromFile loaded)
    (hkey : current.key = loaded.key) : AtLeast loaded (mergeEntry lib current loaded) := by
  have hrange := hloaded.ranged
  have hsum : ∀ a b, b ≤ uint64Max → b ≤ lib.u64AddSaturating a b := by
    intro a b hb
    rw [lib.addSaturating_eq]
    exact Nat.le_min.mpr ⟨Nat.le_add_left b a, hb⟩
  have hcpu : loaded.cpuSeconds ≤ min secondsLimit (current.cpuSeconds + loaded.cpuSeconds) :=
    le_min hloaded.cpuSeconds (le_add_of_nonneg_left hcurrent.cpuSeconds)
  have hactive : loaded.activeSeconds ≤ min secondsLimit (current.activeSeconds + loaded.activeSeconds) :=
    le_min hloaded.activeSeconds (le_add_of_nonneg_left hcurrent.activeSeconds)
  refine ⟨hkey, hcpu, hactive, hsum _ _ hrange.readBytes, hsum _ _ hrange.writeBytes, ?_, lib.addSaturating_le _ _,
    lib.addSaturating_le _ _, le_trans hrange.cpuSeconds hcpu, le_trans hrange.activeSeconds hactive⟩
  simp only [mergeEntry]
  split
  · exact Nat.le_refl _
  · rename_i hless
    exact Nat.le_of_not_lt hless

theorem Ranged.merge {current loaded : LsmHistoryEntry} (hcurrent : Ranged current) (hloaded : Ranged loaded) :
    Ranged (mergeEntry lib current loaded) := by
  have hlimit : (0 : ℚ) ≤ secondsLimit := by decide
  exact ⟨lib.addSaturating_le _ _, lib.addSaturating_le _ _,
    le_min hlimit (add_nonneg hcurrent.cpuSeconds hloaded.cpuSeconds),
    le_min hlimit (add_nonneg hcurrent.activeSeconds hloaded.activeSeconds)⟩

end

/-! ### The table -/

/-- The keys that the limit has cost: of the entries before, when there are too many, those that are not left. -/
def evicted (before after : List LsmHistoryEntry) : List Text :=
  if before.length ≤ lsmHistoryMaxEntries then [] else (before.filter fun e => e ∉ after).map LsmHistoryEntry.key

theorem mem_evicted {before after : List LsmHistoryEntry} (hover : lsmHistoryMaxEntries < before.length)
    {e : LsmHistoryEntry} (he : e ∈ before) (hgone : e ∉ after) : e.key ∈ evicted before after := by
  rw [evicted, if_neg (Nat.not_le_of_lt hover)]
  exact List.mem_map_of_mem (List.mem_filter.mpr ⟨he, by simpa using hgone⟩)

/-- An entry stays, or the limit has cost it. -/
theorem mem_historyTrimToLimit (walk : Walk LsmHistoryEntry) (allocated : Bool) {s : LsmHistoryState}
    (hcount : s.entryCount = s.appHistory.rows.length) (protectedGeneration : Nat) {e : LsmHistoryEntry}
    (he : e ∈ s.appHistory.rows) :
    e ∈ (historyTrimToLimit walk allocated s protectedGeneration).1.appHistory.rows ∨
    e.key ∈ evicted s.appHistory.rows (historyTrimToLimit walk allocated s protectedGeneration).1.appHistory.rows := by
  by_cases hkept : e ∈ (historyTrimToLimit walk allocated s protectedGeneration).1.appHistory.rows
  · exact Or.inl hkept
  · right
    apply mem_evicted _ he hkept
    by_contra hfits
    rw [historyTrimToLimit, if_pos (by omega)] at hkept
    exact hkept he

section
variable (lib : Arithmetic) {s : LsmHistoryState} {row : LsmHistoryEntry}

theorem ingestProcess_carries (generation : Nat) {elapsed : ℚ} (helapsed : 0 ≤ elapsed) (nowEpoch : Int)
    (reading : Reading) (h : ∃ e ∈ s.appHistory.rows, AtLeast row e) :
    ∃ e ∈ (ingestProcess lib generation elapsed nowEpoch s reading).appHistory.rows, AtLeast row e := by
  obtain ⟨e, he, hleast⟩ := h
  obtain ⟨hkey, -, hothers, -⟩ := historyEntryGet_spec s reading
  by_cases hsame : e.key = historyKey reading.process
  · -- It is the entry of the process's identity.
    have hgot : (historyEntryGet s reading).2 = e := by
      have hfind : s.appHistory.find? (historyKey reading.process) = some e := Table.find?_eq_some.mpr ⟨he, hsame⟩
      rw [historyEntryGet, hfind]
    refine ⟨accountedEntry lib generation elapsed nowEpoch s.appHistorySamples reading.process e, ?_,
      hleast.trans (accountedEntry_atLeast lib hleast.ranged generation helapsed nowEpoch _ _)⟩
    simp only [ingestProcess, hgot]
    exact Table.mem_put.mpr (Or.inl rfl)
  · refine ⟨e, ?_, hleast⟩
    simp only [ingestProcess, Table.mem_put, accountedEntry_key, hkey]
    exact Or.inr ⟨(hothers e hsame).mpr he, hsame⟩

theorem ingestAccount_carries (snapshot : Snapshot) (h : ∃ e ∈ s.appHistory.rows, AtLeast row e) :
    ∃ e ∈ (ingestAccount lib s snapshot).appHistory.rows, AtLeast row e := by
  have hfold : ∀ (readings : List Reading) (t : LsmHistoryState), (∃ e ∈ t.appHistory.rows, AtLeast row e) →
      ∃ e ∈ (readings.foldl (ingestProcess lib (nextGeneration s.generation) (ingestElapsed s snapshot.nowMono)
        snapshot.nowEpoch) t).appHistory.rows, AtLeast row e := by
    intro readings
    induction readings with
    | nil => exact fun t h => h
    | cons reading rest ih =>
      intro t h
      exact ih _ (ingestProcess_carries lib _ (ingestElapsed_nonneg s snapshot.nowMono) _ reading h)
  exact hfold snapshot.processes _ h

/-- The entry of a row outlives a snapshot, unless the limit costs it. -/
theorem lsmAppHistoryIngest_carries (hcount : s.entryCount = s.appHistory.rows.length) (snapshot : Snapshot)
    (h : ∃ e ∈ s.appHistory.rows, AtLeast row e) :
    row.key ∈ evicted (ingestAccount lib s snapshot).appHistory.rows
      (lsmAppHistoryIngest lib s snapshot).appHistory.rows ∨
    ∃ e ∈ (lsmAppHistoryIngest lib s snapshot).appHistory.rows, AtLeast row e := by
  obtain ⟨e, he, hleast⟩ := ingestAccount_carries lib snapshot h
  have htrim := mem_historyTrimToLimit snapshot.walk snapshot.allocated (ingestAccount_counted lib hcount snapshot)
    (ingestAccount lib s snapshot).generation he
  have hrows : (lsmAppHistoryIngest lib s snapshot).appHistory.rows = (historyTrimToLimit snapshot.walk
      snapshot.allocated (ingestAccount lib s snapshot) (ingestAccount lib s snapshot).generation).1.appHistory.rows := by
    simp only [lsmAppHistoryIngest]
    split <;> rfl
  rw [hrows, ← hleast.key]
  rcases htrim with hkept | hgone
  · exact Or.inr ⟨e, hkept, hleast⟩
  · exact Or.inl hgone

/-- Merging loaded entries leaves those of other keys alone. -/
theorem mem_foldl_mergeLoadedEntry (entries : List LsmHistoryEntry) {e : LsmHistoryEntry} (he : e ∈ s.appHistory.rows)
    (hkey : e.key ∉ entries.map LsmHistoryEntry.key) :
    e ∈ (entries.foldl (mergeLoadedEntry lib) s).appHistory.rows := by
  induction entries generalizing s with
  | nil => exact he
  | cons loaded rest ih =>
    simp only [List.map_cons, List.mem_cons, not_or] at hkey
    apply ih _ hkey.2
    rw [mergeLoadedEntry_appHistory, Table.mem_put, mergedWith_key]
    exact Or.inr ⟨he, hkey.1⟩

theorem mergedWith_atLeast (hranged : ∀ e ∈ s.appHistory.rows, Ranged e) (hrow : FromFile row) :
    AtLeast row (mergedWith lib s row) := by
  unfold mergedWith
  cases hfind : s.appHistory.find? row.key with
  | none => exact AtLeast.refl hrow.ranged
  | some current =>
    obtain ⟨hmem, hkey⟩ := Table.find?_eq_some.mp hfind
    exact mergeEntry_atLeast lib (hranged current hmem) hrow hkey

/-- Every loaded entry is in the merged table, with what was there added. -/
theorem foldl_mergeLoadedEntry_carries (entries : List LsmHistoryEntry) (hentries : ∀ e ∈ entries, FromFile e)
    (hdistinct : (entries.map LsmHistoryEntry.key).Nodup) (hranged : ∀ e ∈ s.appHistory.rows, Ranged e)
    (hrow : row ∈ entries) : ∃ e ∈ (entries.foldl (mergeLoadedEntry lib) s).appHistory.rows, AtLeast row e := by
  induction entries generalizing s with
  | nil => cases hrow
  | cons loaded rest ih =>
    rw [List.map_cons, List.nodup_cons] at hdistinct
    have hloaded := hentries loaded (List.mem_cons_self ..)
    rcases List.mem_cons.mp hrow with rfl | hrest
    · have hleast := mergedWith_atLeast lib hranged hloaded
      refine ⟨mergedWith lib s row, mem_foldl_mergeLoadedEntry lib rest ?_ ?_, hleast⟩
      · rw [mergeLoadedEntry_appHistory]
        exact Table.mem_put.mpr (Or.inl rfl)
      · rw [mergedWith_key]
        exact hdistinct.1
    · apply ih (fun e he => hentries e (List.mem_cons_of_mem _ he)) hdistinct.2 _ hrest
      exact foldl_mergeLoadedEntry_forall lib (fun _ _ => Ranged.merge lib) [loaded]
        (fun e he => List.mem_singleton.mp he ▸ hloaded.ranged) hranged

theorem foldl_mergeLoadedEntry_counted (entries : List LsmHistoryEntry)
    (hcount : s.entryCount = s.appHistory.rows.length) :
    let t := entries.foldl (mergeLoadedEntry lib) s
    t.entryCount = t.appHistory.rows.length := by
  induction entries generalizing s with
  | nil => exact hcount
  | cons loaded rest ih => exact ih (mergeLoadedEntry_counted hcount)

/-- A loaded row is in the table after the merge, unless the limit costs it. -/
theorem historyMergeLoaded_carries (hcount : s.entryCount = s.appHistory.rows.length)
    (hranged : ∀ e ∈ s.appHistory.rows, Ranged e) (result : LsmHistoryLoadResult)
    (hresult : ∀ e ∈ result.entries.rows, FromFile e) (run : MergeRun) :
    let t := historyMergeLoaded lib s result run
    t.entryCount = t.appHistory.rows.length ∧ (∀ e ∈ t.appHistory.rows, Ranged e) ∧
    ∀ row ∈ result.entries.rows, row.key ∈ evicted (mergeAccount lib s result run).appHistory.rows t.appHistory.rows ∨
      ∃ e ∈ t.appHistory.rows, AtLeast row e := by
  have hperm := run.loadedWalk.perm result.entries.rows
  have hfile : ∀ e ∈ run.loadedWalk.order result.entries.rows, FromFile e := fun e he =>
    hresult e ((run.loadedWalk.mem _ e).mp he)
  have hcounted := foldl_mergeLoadedEntry_counted lib (run.loadedWalk.order result.entries.rows) hcount
  have hall := foldl_mergeLoadedEntry_forall lib (fun _ _ => Ranged.merge lib) _ (fun e he => (hfile e he).ranged) hranged
  have htrim := historyTrimToLimit_trimmed run.walk run.allocated (s := mergeAccount lib s result run) hcounted
    (mergeAccount lib s result run).generation
  have hrows : (historyMergeLoaded lib s result run).appHistory.rows = (historyTrimToLimit run.walk run.allocated
      (mergeAccount lib s result run) (mergeAccount lib s result run).generation).1.appHistory.rows := by
    simp only [historyMergeLoaded]
    split <;> rfl
  have hentries : (historyMergeLoaded lib s result run).entryCount = (historyTrimToLimit run.walk run.allocated
      (mergeAccount lib s result run) (mergeAccount lib s result run).generation).1.entryCount := by
    simp only [historyMergeLoaded]
    split <;> rfl
  refine ⟨?_, ?_, ?_⟩
  · rw [hrows, hentries]
    exact htrim.counted
  · rw [hrows]
    exact fun e he => hall e (htrim.evicted.sublist.subset he)
  · intro row hrow
    obtain ⟨e, he, hleast⟩ := foldl_mergeLoadedEntry_carries lib _ hfile
      ((hperm.map _).nodup_iff.mpr result.entries.distinct) hranged ((run.loadedWalk.mem _ row).mpr hrow)
    rw [hrows, ← hleast.key]
    rcases mem_historyTrimToLimit run.walk run.allocated (s := mergeAccount lib s result run) hcounted
      (mergeAccount lib s result run).generation he with hkept | hgone
    · exact Or.inr ⟨e, hkept, hleast⟩
    · exact Or.inl hgone

end

/-! ### Sessions -/

/-- What the limit costs in a step: of the file as it is read, of the merged table, or of the table after a snapshot. -/
def evictions (lib : Arithmetic) (numerals : Numerals) (s : Session) : SessionAction → List Text
  | .ingest snapshot =>
    evicted (ingestAccount lib s.history snapshot).appHistory.rows
      (lsmAppHistoryIngest lib s.history snapshot).appHistory.rows
  | .readFile walk _ =>
    evicted (wellFormedRows numerals s.persistence.file) (fileRows numerals walk s.persistence.file)
  | .loadComplete run _ =>
    match s.load with
    | .finished (.loaded result) =>
      evicted (mergeAccount lib {s.history with loadPending := false} result run).appHistory.rows
        (historyMergeLoaded lib {s.history with loadPending := false} result run).appHistory.rows
    | _ => []
  | _ => []

/-- A line of the file for the row, with totals that are at least as large. -/
structure Represents (numerals : Numerals) (row : LsmHistoryEntry) (record : LsmHistoryPersistEntry) : Prop where
  key : record.key = copyRecordString row.key
  cpuSeconds : row.cpuSeconds ≤ numerals.sixDecimals record.cpuSeconds
  activeSeconds : row.activeSeconds ≤ numerals.sixDecimals record.activeSeconds
  readBytes : row.readBytes ≤ record.readBytes
  writeBytes : row.writeBytes ≤ record.writeBytes
  peakRssBytes : row.peakRssBytes ≤ record.peakRssBytes

/-- Six decimals show the seconds of the row as they are. -/
def SixDecimals (numerals : Numerals) (row : LsmHistoryEntry) : Prop :=
  numerals.sixDecimals row.cpuSeconds = row.cpuSeconds ∧ numerals.sixDecimals row.activeSeconds = row.activeSeconds

theorem AtLeast.represents {numerals : Numerals} {row e : LsmHistoryEntry} (h : AtLeast row e)
    (hdecimals : SixDecimals numerals row) : Represents numerals row (persistEntry e) := by
  refine ⟨congrArg copyRecordString h.key, ?_, ?_, h.readBytes, h.writeBytes, h.peakRssBytes⟩
  · rw [← hdecimals.1]
    exact numerals.sixDecimals_mono _ _ h.cpuSeconds
  · rw [← hdecimals.2]
    exact numerals.sixDecimals_mono _ _ h.activeSeconds

/-- Where the rows of the first file are, but for those the limit has cost so
far: in what the worker read, then in the table, and in every request. -/
structure Surviving (numerals : Numerals) (initial : Option Text) (log : List Text) (s : Session) : Prop where
  base : Base numerals initial s
  counted : s.main ≠ .closed → s.history.entryCount = s.history.appHistory.rows.length
  ranged : s.main ≠ .closed → ∀ e ∈ s.history.appHistory.rows, Ranged e
  loading : s.main ≠ .closed → ∀ outcome, s.load = .finished outcome → outcome ≠ .failed ∧
    ∀ result, outcome = .loaded result →
      ∀ row ∈ wellFormedRows numerals initial, row.key ∈ log ∨ row ∈ result.entries.rows
  table : s.main ≠ .closed → s.history.loadPending = false →
    ∀ row ∈ wellFormedRows numerals initial, row.key ∈ log ∨ ∃ e ∈ s.history.appHistory.rows, AtLeast row e
  requested : ∀ r ∈ requests s.persistence,
    ∀ row ∈ wellFormedRows numerals initial, row.key ∈ log ∨ ∃ record ∈ r.entries, Represents numerals row record

section
variable {lib : Arithmetic} {numerals : Numerals} {initial : Option Text} {log : List Text} {s t : Session}

theorem Surviving.start (numerals : Numerals) (file : Option Text) : Surviving numerals file [] (.start file) where
  base := .start numerals file
  counted _ := rfl
  ranged _ e he := absurd he List.not_mem_nil
  loading _ outcome h := absurd h (by simp [Session.start])
  table _ h := absurd h (by simp [Session.start])
  requested r hr := absurd hr List.not_mem_nil

theorem Surviving.append (h : Surviving numerals initial log s) (more : List Text) :
    Surviving numerals initial (log ++ more) s where
  base := h.base
  counted := h.counted
  ranged := h.ranged
  loading hopen outcome hload := by
    obtain ⟨hworked, hrows⟩ := h.loading hopen outcome hload
    exact ⟨hworked, fun result hresult row hrow =>
      (hrows result hresult row hrow).imp_left (List.mem_append_left more)⟩
  table hopen hloaded row hrow := (h.table hopen hloaded row hrow).imp_left (List.mem_append_left more)
  requested r hr row hrow := (h.requested r hr row hrow).imp_left (List.mem_append_left more)

/-- A callback that leaves the table and the load alone. -/
theorem Surviving.setFlags (h : Surviving numerals initial log s) (hopen : s.main ≠ .closed) {history : LsmHistoryState}
    {worker : Option Nat} {main : MainThread} (hbase : Base numerals initial {s with history, worker, main})
    (htable : history.appHistory = s.history.appHistory) (hcount : history.entryCount = s.history.entryCount)
    (hload : history.loadPending = s.history.loadPending) :
    Surviving numerals initial log {s with history, worker, main} where
  base := hbase
  counted _ := by
    show history.entryCount = history.appHistory.rows.length
    rw [htable, hcount]
    exact h.counted hopen
  ranged _ := by
    show ∀ e ∈ history.appHistory.rows, Ranged e
    rw [htable]
    exact h.ranged hopen
  loading _ := h.loading hopen
  table _ hloaded := by
    show ∀ row ∈ wellFormedRows numerals initial, row.key ∈ log ∨ ∃ e ∈ history.appHistory.rows, AtLeast row e
    rw [htable]
    exact h.table hopen (hload.symm.trans hloaded)
  requested := h.requested

theorem Surviving.close (h : Surviving numerals initial log s) : Surviving numerals initial log (historyClose s) where
  base := h.base.close
  counted hopen := absurd rfl hopen
  ranged hopen := absurd rfl hopen
  loading hopen := absurd rfl hopen
  table hopen := absurd rfl hopen
  requested := h.requested

/-- A request made after the merge has a record for every row. -/
theorem Surviving.schedule (h : Surviving numerals initial log s) (hopen : s.main ≠ .closed)
    (hdecimals : ∀ row ∈ wellFormedRows numerals initial, SixDecimals numerals row)
    (hloaded : s.history.loadPending = false) (walk : Walk LsmHistoryEntry) {savePending : Bool} {worker : Option Nat}
    {main : MainThread}
    (hbase : Base numerals initial {s with
      history := {s.history with savePending}
      persistence := History.schedule walk s
      worker
      main}) :
    Surviving numerals initial log {s with
      history := {s.history with savePending}
      persistence := History.schedule walk s
      worker
      main} where
  base := hbase
  counted _ := h.counted hopen
  ranged _ := h.ranged hopen
  loading _ := h.loading hopen
  table _ _ := h.table hopen hloaded
  requested r hr row hrow := by
    rcases mem_requests_schedule hr with hr | rfl
    · exact h.requested r hr row hrow
    · rcases h.table hopen hloaded row hrow with hgone | ⟨e, he, hleast⟩
      · exact Or.inl hgone
      · refine Or.inr ⟨persistEntry e, ?_, hleast.represents (hdecimals row hrow)⟩
        have hperm := walk.perm s.history.appHistory.rows
        simp only [historySaveRequestCreate]
        rw [List.take_of_length_le (by rw [hperm.length_eq, h.counted hopen])]
        exact List.mem_map_of_mem ((walk.mem _ e).mpr he)

theorem Surviving.save (h : Surviving numerals initial log s) (hidle : s.main = .idle)
    (hdecimals : ∀ row ∈ wellFormedRows numerals initial, SixDecimals numerals row) (save : SaveRun) :
    Surviving numerals initial log (lsmHistorySave s save) := by
  have hopen : s.main ≠ .closed := by simp [hidle]
  have hbase := h.base.save hidle save
  rcases lsmHistorySave_cases s save with hsame | hagain | ⟨-, hloaded, -, hscheduled⟩
  · rw [hsame]
    exact h
  · rw [hagain] at hbase ⊢
    exact h.setFlags hopen hbase rfl rfl rfl
  · rw [hscheduled] at hbase ⊢
    exact h.schedule hopen hdecimals hloaded save.walk hbase

theorem Surviving.saveIfAgain (h : Surviving numerals initial log s) (hidle : s.main = .idle)
    (hdecimals : ∀ row ∈ wellFormedRows numerals initial, SixDecimals numerals row) (save : SaveRun) :
    Surviving numerals initial log (saveIfAgain s save) := by
  unfold History.saveIfAgain
  split
  · have hflag := h.setFlags (by simp [hidle])
      (h.base.setHistory hidle {s.history with saveAgain := false} rfl (Nat.le_refl _)) rfl rfl rfl
    exact hflag.save hidle hdecimals save
  · exact h

theorem Surviving.ingest (h : Surviving numerals initial log s) (hopen : s.main ≠ .closed) (snapshot : Snapshot)
    (hbase : Base numerals initial {s with history := lsmAppHistoryIngest lib s.history snapshot}) :
    Surviving numerals initial (log ++ evictions lib numerals s (.ingest snapshot))
      {s with history := lsmAppHistoryIngest lib s.history snapshot} := by
  have hget : ∀ (u : LsmHistoryState), ∀ r ∈ snapshot.processes, (∀ e ∈ u.appHistory.rows, Ranged e) →
      Ranged (historyEntryGet u r).2 := by
    intro u r _ hall
    unfold historyEntryGet
    cases hfind : u.appHistory.find? (historyKey r.process) with
    | some entry => exact hall entry (Table.find?_eq_some.mp hfind).1
    | none => exact ⟨Nat.zero_le _, Nat.zero_le _, le_refl 0, le_refl 0⟩
  obtain ⟨hcounted, hranged⟩ := lsmAppHistoryIngest_forall lib hget
    (fun samples process _ he => (accountedEntry_atLeast lib he (nextGeneration s.history.generation)
      (ingestElapsed_nonneg s.history snapshot.nowMono) snapshot.nowEpoch samples process).ranged)
    (h.counted hopen) (h.ranged hopen)
  have hpending : (lsmAppHistoryIngest lib s.history snapshot).loadPending = s.history.loadPending := by
    rw [lsmAppHistoryIngest_frame]
  have hgrown := h.append (evictions lib numerals s (.ingest snapshot))
  refine ⟨hbase, fun _ => hcounted, fun _ => hranged, hgrown.loading, ?_, hgrown.requested⟩
  intro _ hloaded row hrow
  rcases h.table hopen (hpending.symm.trans hloaded) row hrow with hgone | hcarried
  · exact Or.inl (List.mem_append_left _ hgone)
  · rcases lsmAppHistoryIngest_carries lib (h.counted hopen) snapshot hcarried with hcost | hkept
    · exact Or.inl (List.mem_append_right _ hcost)
    · exact Or.inr hkept

/-- The worker keeps every row of the file, but for those beyond the limit. -/
theorem Surviving.readFile (h : Surviving numerals initial log s)
    (hdistinct : ((wellFormedRows numerals initial).map LsmHistoryEntry.key).Nodup) (walk : Walk LsmHistoryEntry)
    (hreading : s.load = .reading)
    (hbase : Base numerals initial {s with load := .finished (loadOutcome numerals walk false s.persistence.file)}) :
    Surviving numerals initial (log ++ evictions lib numerals s (.readFile walk false))
      {s with load := .finished (loadOutcome numerals walk false s.persistence.file)} := by
  have hgrown := h.append (evictions lib numerals s (.readFile walk false))
  refine ⟨hbase, h.counted, h.ranged, ?_, hgrown.table, hgrown.requested⟩
  intro hopen outcome houtcome
  cases houtcome
  have hfile := h.base.file (h.base.pending hopen (by simp [hreading]))
  simp only [evictions, hfile]
  cases initial with
  | none => exact ⟨by simp [loadOutcome], fun _ _ row hrow => absurd hrow List.not_mem_nil⟩
  | some bytes =>
    refine ⟨by simp [loadOutcome], ?_⟩
    intro result hresult row hrow
    cases hresult
    have hrecent := historyLoadPath_rows walk hdistinct
    by_cases hkept : row ∈ (historyLoadPath numerals walk bytes).1.appHistory.rows
    · exact Or.inr hkept
    · have hover : lsmHistoryMaxEntries < (wellFormedRows numerals (some bytes)).length := by
        by_contra hfits
        exact hkept ((hrecent.whole (Nat.le_of_not_lt hfits)).mem_iff.mpr hrow)
      exact Or.inl (List.mem_append_right _ (mem_evicted hover hrow hkept))

theorem Surviving.merge (h : Surviving numerals initial log s) (hopen : s.main ≠ .closed) {outcome : LoadOutcome}
    (hload : s.load = .finished outcome) (run : MergeRun) (save : SaveRun)
    (hbase : Base numerals initial {s with history := mergeOutcome lib s.history outcome run, load := .completed}) :
    Surviving numerals initial (log ++ evictions lib numerals s (.loadComplete run save))
      {s with history := mergeOutcome lib s.history outcome run, load := .completed} := by
  have hgrown := h.append (evictions lib numerals s (.loadComplete run save))
  obtain ⟨hworked, hrows⟩ := h.loading hopen outcome hload
  obtain ⟨walk, failed, houtcome⟩ := h.base.outcome hopen outcome hload
  have hsucceeded : failed = false := by
    cases failed with
    | false => rfl
    | true => exact absurd houtcome hworked
  subst hsucceeded
  have hnever : ∀ outcome, LoadTask.completed = .finished outcome → False := fun _ hfalse => by cases hfalse
  cases initial with
  | none =>
    subst houtcome
    exact ⟨hbase, h.counted, h.ranged, fun _ _ hfalse => absurd hfalse (hnever _),
      fun _ _ row hrow => absurd hrow List.not_mem_nil, hgrown.requested⟩
  | some bytes =>
    subst houtcome
    obtain ⟨hcounted, hranged, hcarried⟩ := historyMergeLoaded_carries lib
      (s := {s.history with loadPending := false}) (h.counted hopen) (h.ranged hopen)
      (historyLoadResult numerals walk bytes) (historyLoadPath_loaded numerals walk bytes).entries run
    refine ⟨hbase, fun _ => hcounted, fun _ => hranged, fun _ _ hfalse => absurd hfalse (hnever _), ?_, hgrown.requested⟩
    intro _ _ row hrow
    rcases hrows _ rfl row hrow with hgone | hread
    · exact Or.inl (List.mem_append_left _ hgone)
    · rcases hcarried row hread with hcost | hkept
      · refine Or.inl (List.mem_append_right _ ?_)
        simp only [evictions, hload]
        exact hcost
      · exact Or.inr hkept

theorem Surviving.syncComplete (h : Surviving numerals initial log s) {i : Nat} {request : LsmHistorySaveRequest}
    {failure : Nat} {written closing : Bool} (hsaving : s.main = .saving i closing) :
    Surviving numerals initial log (History.syncComplete s request failure written closing) := by
  have hopen : s.main ≠ .closed := by simp [hsaving]
  have hidle := h.setFlags hopen (h.base.syncComplete hsaving request failure written false) rfl rfl rfl
  cases closing with
  | false => exact hidle
  | true => exact hidle.close

theorem Surviving.saveSync (h : Surviving numerals initial log s) (hopen : s.main ≠ .closed)
    (hdecimals : ∀ row ∈ wellFormedRows numerals initial, SixDecimals numerals row) {save : SaveRun}
    (hbase : Base numerals initial (lsmHistorySaveSync s save)) :
    Surviving numerals initial log (lsmHistorySaveSync s save) := by
  rcases lsmHistorySaveSync_cases s save with hsame | hagain | ⟨-, hloaded, hscheduled⟩
  · rw [hsame]
    exact h
  · rw [hagain] at hbase ⊢
    exact h.setFlags hopen hbase rfl rfl rfl
  · rw [hscheduled] at hbase ⊢
    exact h.schedule hopen hdecimals hloaded save.walk hbase

theorem Surviving.destroy (h : Surviving numerals initial log s) (hopen : s.main ≠ .closed)
    (hdecimals : ∀ row ∈ wellFormedRows numerals initial, SixDecimals numerals row) {save : SaveRun}
    (hbase : Base numerals initial (lsmHistoryDestroy s save)) :
    Surviving numerals initial log (lsmHistoryDestroy s save) := by
  rcases lsmHistoryDestroy_cases s save with hclosed | ⟨-, hloaded, hscheduled⟩
  · rw [hclosed]
    exact h.close
  · rw [hscheduled] at hbase ⊢
    exact h.schedule hopen hdecimals hloaded save.walk hbase

/-- No reset, and a load that does not fail. -/
def loadSucceeds (_ : Session) : SessionAction → Prop
  | .readFile _ failed => failed = false
  | .reset _ => False
  | _ => True

theorem Surviving.step (hdistinct : ((wellFormedRows numerals initial).map LsmHistoryEntry.key).Nodup)
    (hdecimals : ∀ row ∈ wellFormedRows numerals initial, SixDecimals numerals row)
    (h : Surviving numerals initial log s) {a : SessionAction} (hrule : loadSucceeds s a)
    (hstep : (session lib numerals).step s a = some t) :
    Surviving numerals initial (log ++ evictions lib numerals s a) t := by
  have hbase := h.base.step hstep
  have hnothing : evictions lib numerals s a = [] → Surviving numerals initial log t →
      Surviving numerals initial (log ++ evictions lib numerals s a) t := by
    intro hnone ht
    rw [hnone, List.append_nil]
    exact ht
  cases session_step hstep with
  | ingest snapshot hidle => exact h.ingest (by simp [hidle]) snapshot hbase
  | readFile walk failed hreading =>
    have hworked : failed = false := hrule
    subst hworked
    exact h.readFile hdistinct walk hreading hbase
  | loadComplete outcome run save hidle hload =>
    exact (h.merge (by simp [hidle]) hload run save (h.base.merge hidle outcome run)).saveIfAgain hidle hdecimals save
  | save save hidle => exact hnothing rfl (h.save hidle hdecimals save)
  | saveSync save hidle => exact hnothing rfl (h.saveSync (by simp [hidle]) hdecimals hbase)
  | reset save hidle => exact absurd hrule (by simp [loadSucceeds])
  | saveComplete i request failure written save hidle hcall =>
    apply hnothing rfl
    have hflags := h.base.setHistory hidle {s.history with
      savePending := false
      dirty := if failure = 0 ∧ written = true ∧ request.generation = s.history.mutationGeneration then false
        else s.history.dirty} rfl (Nat.le_refl _)
    exact (h.setFlags (by simp [hidle]) (hflags.setWorker none) rfl rfl rfl).saveIfAgain hidle hdecimals save
  | syncComplete i request failure written closing hsaving hcall => exact hnothing rfl (h.syncComplete hsaving)
  | destroy save hidle => exact hnothing rfl (h.destroy (by simp [hidle]) hdecimals hbase)
  | write i failure persistence hadvance =>
    apply hnothing rfl
    refine ⟨hbase, h.counted, h.ranged, h.loading, h.table, ?_⟩
    show ∀ r ∈ requests persistence, _
    rw [advance_requests hadvance]
    exact h.requested

end

/-- **Rows survive.** In every schedule without a reset whose load does not fail,
for a file whose rows have distinct keys and seconds of six decimals: the file
is untouched, or it is the output of a request with a record for every row, of
totals at least as large, except for rows the limit has cost. -/
theorem rows_survive (lib : Arithmetic) (numerals : Numerals) (initial : Option Text)
    (hdistinct : ((wellFormedRows numerals initial).map LsmHistoryEntry.key).Nodup)
    (hdecimals : ∀ row ∈ wellFormedRows numerals initial, SixDecimals numerals row) (actions : List SessionAction)
    {s : Session} (hrun : (session lib numerals).run (.start initial) actions = some s)
    (hrule : (session lib numerals).Admissible loadSucceeds (.start initial) actions) :
    s.persistence.file = initial ∨
    ∃ request, s.persistence.file = requestOutput numerals request ∧
      ∀ row ∈ wellFormedRows numerals initial,
        row.key ∈ (session lib numerals).trace (evictions lib numerals) (.start initial) actions ∨
        ∃ record ∈ request.entries, Represents numerals row record := by
  have hend := (session lib numerals).run_trace_invariant (evictions lib numerals) loadSucceeds
    (Surviving numerals initial) (fun _ _ _ _ h => h.step hdistinct hdecimals) (.start numerals initial) hrule hrun
  rw [List.nil_append] at hend
  rcases hend.base.ordered.content with ⟨-, hfile⟩ | ⟨w, output, hlast, houtput, hfile⟩
  · exact Or.inl hfile
  · obtain ⟨call, hcall, hrequest⟩ := hend.base.ordered.writers w (List.mem_of_getLast? hlast)
    refine Or.inr ⟨w.2, hfile.trans houtput.symm, ?_⟩
    rw [← hrequest]
    exact hend.requested call.request (mem_requests hcall)

instance (s : Session) : (a : SessionAction) → Decidable (loadSucceeds s a)
  | .readFile _ _ => inferInstanceAs (Decidable (_ = _))
  | .reset _ => inferInstanceAs (Decidable False)
  | .ingest _ | .loadComplete .. | .save _ | .saveSync _ | .saveComplete _ | .syncComplete | .destroy _ | .write .. =>
    inferInstanceAs (Decidable True)

instance (numerals : Numerals) (row : LsmHistoryEntry) : Decidable (SixDecimals numerals row) :=
  inferInstanceAs (Decidable (_ ∧ _))

theorem rows_survive_saved :
    ∃ s, (session .documented .documented).run (.start earlierFile) (savedRun [oneApplication]) = some s ∧
      s.persistence.file ≠ earlierFile ∧
      ∃ request, s.persistence.file = requestOutput .documented request ∧
        ∀ row ∈ wellFormedRows .documented earlierFile, ∃ record ∈ request.entries, Represents .documented row record := by
  have hdistinct : ((wellFormedRows .documented earlierFile).map LsmHistoryEntry.key).Nodup := by decide +kernel
  have hdecimals : ∀ row ∈ wellFormedRows .documented earlierFile, SixDecimals .documented row := by decide +kernel
  have hrule : (session .documented .documented).Admissible loadSucceeds (.start earlierFile)
      (savedRun [oneApplication]) := by decide +kernel
  have hnone : (session .documented .documented).trace (evictions .documented .documented) (.start earlierFile)
      (savedRun [oneApplication]) = [] := by decide +kernel
  have hchanged : ((session .documented .documented).run (.start earlierFile) (savedRun [oneApplication])).map
      (fun s => decide (s.persistence.file ≠ earlierFile)) = some true := by decide +kernel
  obtain ⟨s, hrun, hfile⟩ := (session .documented .documented).run_decided hchanged
  have hrows := rows_survive .documented .documented earlierFile hdistinct hdecimals _ hrun hrule
  obtain ⟨request, hrequest, hrows⟩ := hrows.resolve_left hfile
  refine ⟨s, hrun, hfile, request, hrequest, ?_⟩
  intro row hrow
  have hkept := hrows row hrow
  rw [hnone] at hkept
  exact hkept.resolve_left List.not_mem_nil

/-- The worker could not read the file. -/
def failedLoad : List SessionAction :=
  [.readFile .stored true, .loadComplete mergeStored saveStored, .ingest oneApplication, .save saveStored] ++
    List.replicate 10 (.write 0 none) ++ [.saveComplete saveStored]

/-- The first save after a failed load replaces the file, and its row is gone, though nothing was evicted. -/
theorem unread_file_replaced :
    ∃ s, (session .documented .documented).run (.start earlierFile) failedLoad = some s ∧ s.history.dirty = false ∧
      (∀ a ∈ failedLoad, ∀ save, a ≠ .reset save) ∧
      (session .documented .documented).trace (evictions .documented .documented) (.start earlierFile) failedLoad = [] ∧
      (wellFormedRows .documented earlierFile).map (·.key) = [ascii "uid:1000|/a"] ∧
      (wellFormedRows .documented s.persistence.file).map (·.key) = [ascii "uid:1000|shell"] := by
  have hnone : (session .documented .documented).trace (evictions .documented .documented) (.start earlierFile)
      failedLoad = [] := by decide +kernel
  have hbefore : (wellFormedRows .documented earlierFile).map (·.key) = [ascii "uid:1000|/a"] := by decide +kernel
  have hafter : ((session .documented .documented).run (.start earlierFile) failedLoad).map (fun s => decide
      (s.history.dirty = false ∧
        (wellFormedRows .documented s.persistence.file).map (·.key) = [ascii "uid:1000|shell"])) = some true := by
    decide +kernel
  have hnoReset : ∀ a ∈ failedLoad, ∀ save, a ≠ .reset save := by
    intro a ha save heq
    subst heq
    simp [failedLoad] at ha
  obtain ⟨s, hrun, hclean, hrows⟩ := (session .documented .documented).run_decided hafter
  exact ⟨s, hrun, hclean, hnoReset, hnone, hbefore, hrows⟩

end SystemMonitor.History
