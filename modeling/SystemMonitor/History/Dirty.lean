import SystemMonitor.History.Reset

/-! The dirty flag.

While the flag is clear nothing is saved, so a clear flag has to mean that the
file already holds the table. Entries change only where the flag is set, except
in two places: the merge of a load into an empty table, which is then what the
file holds, and a snapshot without processes, which may trim the table. The
trimmed table is what the loader keeps of the longer file, so even there the
flag is right. A save clears the flag for the generation it was made of, and
requests of that generation are copies of the table as it is now. -/
namespace SystemMonitor.History
open Lib

/-! ### What the file says of the table -/

/-- The entries a load of the file gives. -/
def fileRows (numerals : Numerals) (walk : Walk LsmHistoryEntry) (file : Option Text) : List LsmHistoryEntry :=
  match file with
  | none => []
  | some bytes => (historyLoadPath numerals walk bytes).1.appHistory.rows

/-- An entry within the loader's limits, whose key is written as it is. -/
structure Writable (numerals : Numerals) (e : LsmHistoryEntry) : Prop where
  key : ∀ b ∈ e.key, b ≠ 9 ∧ b ≠ 10 ∧ b ≠ 13
  storable : Storable numerals e

/-- A load gives the most recent entries of the table, as far as the file says them. -/
def Saved (numerals : Numerals) (rows : List LsmHistoryEntry) (file : Option Text) : Prop :=
  ∀ walk, Recent (rows.map (persisted numerals)) ((fileRows numerals walk file).map (persisted numerals))

section
variable {numerals : Numerals} {rows : List LsmHistoryEntry}

theorem Writable.persisted_key {e : LsmHistoryEntry} (h : Writable numerals e) : (persisted numerals e).key = e.key :=
  copyRecordString_of_printable h.key

theorem recency_persisted (hwritable : ∀ e ∈ rows, Writable numerals e) :
    ∀ x ∈ rows, ∀ y ∈ rows, historyEntryRecencyCompare (persisted numerals x) (persisted numerals y) =
      historyEntryRecencyCompare x y := by
  intro x hx y hy
  have hxkey := (hwritable x hx).persisted_key
  have hykey := (hwritable y hy).persisted_key
  simp only [historyEntryRecencyCompare, compareLex, compareOn, hxkey, hykey]
  rfl

theorem persisted_inj (hdistinct : (rows.map LsmHistoryEntry.key).Nodup)
    (hwritable : ∀ e ∈ rows, Writable numerals e) :
    ∀ x ∈ rows, ∀ y ∈ rows, (persisted numerals x).key = (persisted numerals y).key → x = y := by
  intro x hx y hy heq
  rw [(hwritable x hx).persisted_key, (hwritable y hy).persisted_key] at heq
  exact List.inj_on_of_nodup_map hdistinct hx hy heq

theorem nodup_persisted (hdistinct : (rows.map LsmHistoryEntry.key).Nodup)
    (hwritable : ∀ e ∈ rows, Writable numerals e) : (rows.map (persisted numerals)).Nodup := by
  apply (List.Nodup.of_map _ hdistinct).map_on
  intro x hx y hy heq
  exact persisted_inj hdistinct hwritable x hx y hy (congrArg LsmHistoryEntry.key heq)

theorem recent_persisted {kept : List LsmHistoryEntry} (h : Recent rows kept)
    (hdistinct : (rows.map LsmHistoryEntry.key).Nodup) (hwritable : ∀ e ∈ rows, Writable numerals e) :
    Recent (rows.map (persisted numerals)) (kept.map (persisted numerals)) := by
  apply h.map
  · intro x hx y hy heq
    exact persisted_inj hdistinct hwritable x hx y hy (congrArg LsmHistoryEntry.key heq)
  · exact recency_persisted hwritable

/-- The most recent entries of a table are determined by what the file says. -/
theorem recent_unique (hdistinct : (rows.map LsmHistoryEntry.key).Nodup)
    (hwritable : ∀ e ∈ rows, Writable numerals e) {a b : List LsmHistoryEntry}
    (ha : Recent (rows.map (persisted numerals)) a) (hb : Recent (rows.map (persisted numerals)) b) : a.Perm b := by
  apply ha.unique hb
  intro x hx y hy hxy hyx
  obtain ⟨e, he, rfl⟩ := List.mem_map.mp hx
  obtain ⟨f, hf, rfl⟩ := List.mem_map.mp hy
  rw [persisted_inj hdistinct hwritable e he f hf (eq_key_of_recency hxy hyx)]

/-- A table that is what the file gives. -/
theorem Saved.of_perm {file : Option Text} (hfile : ∀ walk, (fileRows numerals walk file).Perm rows)
    (hdistinct : (rows.map LsmHistoryEntry.key).Nodup) (hwritable : ∀ e ∈ rows, Writable numerals e)
    (hfits : rows.length ≤ lsmHistoryMaxEntries) : Saved numerals rows file := by
  intro walk
  apply (Newest.refl (nodup_persisted hdistinct hwritable) _).perm (List.Perm.refl _) ((hfile walk).map _).symm
  rwa [List.length_map]

/-- Trimming a table to what the loader keeps. -/
theorem Saved.trim {file : Option Text} (h : Saved numerals rows file) {kept : List LsmHistoryEntry}
    (hkept : Recent rows kept) (hdistinct : (rows.map LsmHistoryEntry.key).Nodup)
    (hwritable : ∀ e ∈ rows, Writable numerals e) : Saved numerals kept file := by
  intro walk
  have hmapped := recent_persisted hkept hdistinct hwritable
  have hperm := recent_unique hdistinct hwritable hmapped (h walk)
  apply (Newest.refl hmapped.nodup _).perm (List.Perm.refl _) hperm
  rw [hmapped.length]
  exact Nat.min_le_right ..

end

/-! ### Requests of the present generation -/

/-- A request made of the table, which at most a trim has changed since. -/
def Copies (numerals : Numerals) (rows : List LsmHistoryEntry) (r : LsmHistorySaveRequest) : Prop :=
  ∃ order : List LsmHistoryEntry, (∀ e ∈ order, Typed e ∧ Writable numerals e) ∧
    (order.map LsmHistoryEntry.key).Nodup ∧ r.entries = order.map persistEntry ∧
    (order.Perm rows ∨ Recent order rows)

section
variable {numerals : Numerals} {rows : List LsmHistoryEntry} {r : LsmHistorySaveRequest}

theorem Copies.trim (h : Copies numerals rows r) {kept : List LsmHistoryEntry} (hkept : Recent rows kept) :
    Copies numerals kept r := by
  obtain ⟨order, hentries, hdistinct, hcopied, hsince⟩ := h
  refine ⟨order, hentries, hdistinct, hcopied, Or.inr ?_⟩
  rcases hsince with hperm | hrecent
  · exact hkept.perm hperm.symm (List.Perm.refl _)
  · exact hrecent.trans hkept

/-- The file of such a request. -/
theorem Copies.saved (h : Copies numerals rows r) : Saved numerals rows (requestOutput numerals r) := by
  obtain ⟨order, hentries, hdistinct, hcopied, hsince⟩ := h
  have hwritable : ∀ e ∈ order, Writable numerals e := fun e he => (hentries e he).2
  have hkeys : (order.map fun e => copyRecordString e.key).Nodup := by
    have hsame : (order.map fun e => copyRecordString e.key) = order.map LsmHistoryEntry.key := by
      apply List.map_congr_left
      intro e he
      exact (hwritable e he).persisted_key
    rwa [hsame]
  intro walk
  obtain ⟨bytes, hbytes, hloaded⟩ := historyLoadPath_newest numerals walk order r.generation
    (fun e he => (hentries e he).1) (fun e he => (hwritable e he).storable) hkeys
  have hfile : requestOutput numerals r = some bytes := by
    rw [← hbytes, ← hcopied]
  rw [hfile]
  -- What is loaded is written once more as it is.
  have hfixed : (fileRows numerals walk (some bytes)).map (persisted numerals) = fileRows numerals walk (some bytes) := by
    conv_rhs => rw [← List.map_id (fileRows numerals walk (some bytes))]
    apply List.map_congr_left
    intro e he
    obtain ⟨x, -, rfl⟩ := List.mem_map.mp (hloaded.subset e he)
    exact persisted_idem numerals x
  rw [hfixed]
  rcases hsince with hperm | hrecent
  · exact hloaded.perm (hperm.map _) (List.Perm.refl _)
  · have hmapped := recent_persisted hrecent hdistinct hwritable
    have hsame := recent_unique hdistinct hwritable hmapped hloaded
    apply (Newest.refl hmapped.nodup _).perm (List.Perm.refl _) hsame
    rw [hmapped.length]
    exact Nat.min_le_right ..

end

/-! ### Changes of the table -/

section
variable (lib : Arithmetic) {s : LsmHistoryState}

/-- A snapshot without processes leaves the most recent entries: none is stamped with its generation. -/
theorem lsmAppHistoryIngest_empty {latest : List Text} (h : Retained latest s.generation s)
    (hgeneration : s.generation + 1 < 2 ^ 32) {snapshot : Snapshot} (hnone : snapshot.processes = []) :
    Recent s.appHistory.rows (lsmAppHistoryIngest lib s snapshot).appHistory.rows := by
  obtain ⟨hnext, hlive⟩ := ingestAccount_live lib h hgeneration snapshot
  have hkeys : snapshot.keys = [] := by simp [Snapshot.keys, hnone]
  have hrows : (ingestAccount lib s snapshot).appHistory = s.appHistory := by
    simp only [ingestAccount, hnone, List.foldl_nil]
  have hopen : ∀ e ∈ (ingestAccount lib s snapshot).appHistory.rows, shielded (s.generation + 1) e = false := by
    intro e he
    have hiff := hlive.shielded_iff (Nat.succ_ne_zero _) he
    rw [hkeys] at hiff
    simpa using hiff
  have htrim := historyTrimToLimit_trimmed snapshot.walk snapshot.allocated hlive.counted (s.generation + 1)
  have hleast := length_historyTrimToLimit snapshot.walk snapshot.allocated hlive.counted (s.generation + 1)
  have hmost : (historyTrimToLimit snapshot.walk snapshot.allocated (ingestAccount lib s snapshot)
      (s.generation + 1)).1.appHistory.rows.length ≤ lsmHistoryMaxEntries := by
    rcases htrim.fits with hfits | hall
    · exact hfits
    · have hnil : (historyTrimToLimit snapshot.walk snapshot.allocated (ingestAccount lib s snapshot)
          (s.generation + 1)).1.appHistory.rows = [] := by
        apply List.eq_nil_iff_forall_not_mem.mpr
        intro e he
        have hshielded := hall e he
        rw [hopen e (htrim.evicted.sublist.subset he)] at hshielded
        cases hshielded
      rw [hnil]
      exact Nat.zero_le _
  have hlength := htrim.evicted.sublist.length_le
  have hrecent : Recent _ _ := htrim.evicted.newest (Table.nodup _) hopen (by omega)
  rw [hrows] at hrecent
  simp only [lsmAppHistoryIngest, hnone, ne_eq, not_true_eq_false, if_false, hnext]
  exact hrecent

theorem Typed.merge {current loaded : LsmHistoryEntry} (hcurrent : Typed current) (hloaded : Typed loaded) :
    Typed (mergeEntry lib current loaded) := by
  have hlimit : (0 : ℚ) ≤ secondsLimit := by decide
  refine ⟨hcurrent.nulFree, hcurrent.notComment, ⟨lib.addSaturating_le _ _, lib.addSaturating_le _ _, ?_⟩, ?_, ?_,
    le_min hlimit (add_nonneg hcurrent.seconds.1 hloaded.seconds.1),
    le_min hlimit (add_nonneg hcurrent.seconds.2 hloaded.seconds.2)⟩
  · simp only [mergeEntry]
    split
    · exact hloaded.counters.2.2
    · exact hcurrent.counters.2.2
  · simp only [mergeEntry]
    split
    · exact hloaded.firstSeen
    · exact hcurrent.firstSeen
  · simp only [mergeEntry]
    split
    · exact hloaded.lastSeen
    · exact hcurrent.lastSeen

theorem foldl_mergeLoadedEntry_forall {P : LsmHistoryEntry → Prop}
    (hmerge : ∀ current loaded, P current → P loaded → P (mergeEntry lib current loaded))
    (entries : List LsmHistoryEntry) (hentries : ∀ e ∈ entries, P e) (h : ∀ e ∈ s.appHistory.rows, P e) :
    ∀ e ∈ (entries.foldl (mergeLoadedEntry lib) s).appHistory.rows, P e := by
  induction entries generalizing s with
  | nil => exact h
  | cons loaded rest ih =>
    apply ih fun e he => hentries e (List.mem_cons_of_mem _ he)
    intro e he
    rw [mergeLoadedEntry_appHistory, Table.mem_put] at he
    rcases he with rfl | ⟨he, -⟩
    · have hloaded := hentries loaded (List.mem_cons_self ..)
      unfold mergedWith
      cases hfind : s.appHistory.find? loaded.key with
      | none => exact hloaded
      | some current => exact hmerge current loaded (h current (Table.find?_eq_some.mp hfind).1) hloaded
    · exact h e he

/-- Entries of new keys are added as they are. -/
theorem foldl_mergeLoadedEntry_new (entries : List LsmHistoryEntry)
    (hdistinct : ((s.appHistory.rows ++ entries).map LsmHistoryEntry.key).Nodup) :
    (entries.foldl (mergeLoadedEntry lib) s).appHistory.rows = s.appHistory.rows ++ entries := by
  induction entries generalizing s with
  | nil => simp
  | cons loaded rest ih =>
    have hnew : loaded.key ∉ s.appHistory.rows.map LsmHistoryEntry.key := by
      rw [List.map_append, List.nodup_append] at hdistinct
      intro hmem
      exact hdistinct.2.2 _ hmem loaded.key (by simp) rfl
    have hfind : s.appHistory.find? loaded.key = none :=
      Table.find?_eq_none.mpr fun x hx hkey => hnew (List.mem_map.mpr ⟨x, hx, hkey⟩)
    have hrows : (mergeLoadedEntry lib s loaded).appHistory.rows = s.appHistory.rows ++ [loaded] := by
      rw [mergeLoadedEntry_appHistory, mergedWith, hfind]
      exact put_new hnew
    rw [List.foldl_cons, ih, hrows, List.append_assoc]
    · rfl
    · rw [hrows, List.append_assoc]
      exact hdistinct

end

/-! ### The flag -/

/-- What a session knows of its file, before the history is destroyed. -/
structure Synced (numerals : Numerals) (initial : Option Text) (s : Session) : Prop where
  base : Base numerals initial s
  retained : ∃ latest, Retained latest s.history.generation s.history
  entries : ∀ e ∈ s.history.appHistory.rows, Typed e ∧ Writable numerals e
  loading : s.load ≠ .finished .failed
  marked : s.history.dirty = true → 0 < s.history.mutationGeneration
  empty : s.history.loadPending = true → s.history.dirty = false → s.history.appHistory.rows = []
  current : ∀ r ∈ requests s.persistence, r.generation = s.history.mutationGeneration →
    Copies numerals s.history.appHistory.rows r
  clean : s.history.loadPending = false → s.history.dirty = false →
    (s.persistence.calls = [] ∨
      0 < s.history.mutationGeneration ∧ s.persistence.latestWritten = s.history.mutationGeneration) ∧
    Saved numerals s.history.appHistory.rows s.persistence.file

section
variable {lib : Arithmetic} {numerals : Numerals} {initial : Option Text} {s t : Session}

theorem Synced.start (numerals : Numerals) (file : Option Text) : Synced numerals file (.start file) where
  base := .start numerals file
  retained := ⟨[], ⟨rfl, fun e he => absurd he List.not_mem_nil, fun e he => absurd he List.not_mem_nil⟩, rfl,
    fun _ => Or.inl rfl⟩
  entries e he := absurd he List.not_mem_nil
  loading h := absurd h (by simp [Session.start])
  marked h := absurd h (by simp [Session.start])
  empty _ _ := rfl
  current r hr := absurd hr List.not_mem_nil
  clean h := absurd h (by simp [Session.start])

/-- A callback that changes neither the tables nor the dirty flag. -/
theorem Synced.setFlags (h : Synced numerals initial s) (worker : Option Nat) (savePending saveAgain : Bool)
    (hbase : Base numerals initial {s with history := {s.history with savePending, saveAgain}, worker}) :
    Synced numerals initial {s with history := {s.history with savePending, saveAgain}, worker} where
  base := hbase
  retained := by
    obtain ⟨latest, hretained⟩ := h.retained
    exact ⟨latest, hretained.setFlags _ _ _ _ _ id⟩
  entries := h.entries
  loading := h.loading
  marked := h.marked
  empty := h.empty
  current := h.current
  clean := h.clean

/-- A request made now is a copy of the table. -/
theorem Synced.copies (h : Synced numerals initial s) (walk : Walk LsmHistoryEntry) :
    Copies numerals s.history.appHistory.rows (historySaveRequestCreate walk s.history) := by
  obtain ⟨latest, hmarked, -, -⟩ := h.retained
  have hperm := walk.perm s.history.appHistory.rows
  refine ⟨walk.order s.history.appHistory.rows, fun e he => h.entries e ((walk.mem _ e).mp he), ?_, ?_, Or.inl hperm⟩
  · exact (hperm.map _).nodup_iff.mpr s.history.appHistory.distinct
  · simp only [historySaveRequestCreate]
    rw [List.take_of_length_le]
    rw [hperm.length_eq, hmarked.counted]

theorem Synced.schedule (h : Synced numerals initial s) (hdirty : s.history.dirty = true) (walk : Walk LsmHistoryEntry)
    {worker : Option Nat} {main : MainThread} {savePending : Bool}
    (hbase : Base numerals initial {s with
      history := {s.history with savePending}
      persistence := History.schedule walk s
      worker
      main}) :
    Synced numerals initial {s with
      history := {s.history with savePending}
      persistence := History.schedule walk s
      worker
      main} where
  base := hbase
  retained := by
    obtain ⟨latest, hretained⟩ := h.retained
    exact ⟨latest, hretained.setFlags _ _ _ _ _ id⟩
  entries := h.entries
  loading := h.loading
  marked := h.marked
  empty := h.empty
  current r hr hgeneration := by
    rcases mem_requests_schedule hr with hr | rfl
    · exact h.current r hr hgeneration
    · exact h.copies walk
  clean _ hclean := absurd (hdirty.symm.trans hclean) (by simp)

theorem Synced.save (h : Synced numerals initial s) (hidle : s.main = .idle) (save : SaveRun) :
    Synced numerals initial (lsmHistorySave s save) := by
  have hbase := h.base.save hidle save
  rcases lsmHistorySave_cases s save with hsame | hagain | ⟨hdirty, -, -, hscheduled⟩
  · rw [hsame]
    exact h
  · rw [hagain] at hbase ⊢
    exact h.setFlags _ _ _ hbase
  · rw [hscheduled] at hbase ⊢
    exact h.schedule hdirty save.walk hbase

theorem Synced.saveIfAgain (h : Synced numerals initial s) (hidle : s.main = .idle) (save : SaveRun) :
    Synced numerals initial (saveIfAgain s save) := by
  unfold History.saveIfAgain
  split
  · have hflag := h.setFlags s.worker s.history.savePending false (h.base.setHistory hidle _ rfl (Nat.le_refl _))
    exact hflag.save hidle save
  · exact h

/-- When a request of the present generation has been written, the file holds the table. -/
theorem Synced.written (h : Synced numerals initial s) (hpositive : 0 < s.history.mutationGeneration)
    (hreached : s.history.mutationGeneration ≤ s.persistence.latestWritten ∨
      ∃ (i : Nat) (call : Call) (failure : Nat), s.persistence.calls[i]? = some call ∧
        call.phase = .returned failure true ∧ call.request.generation = s.history.mutationGeneration) :
    s.persistence.latestWritten = s.history.mutationGeneration ∧
    Saved numerals s.history.appHistory.rows s.persistence.file := by
  obtain ⟨hstored, -, r, hr, hgeneration, hfile⟩ := h.base.ordered.newest hpositive h.base.generations hreached
  refine ⟨hstored, ?_⟩
  rw [hfile]
  exact (h.current r hr hgeneration).saved

/-- A completion may clear the flag once that is so. -/
theorem Synced.complete (h : Synced numerals initial s) (hloaded : s.history.loadPending = false)
    {dirty savePending : Bool} {worker : Option Nat} {main : MainThread}
    (hdirty : dirty = s.history.dirty ∨ dirty = false ∧
      (s.history.mutationGeneration ≤ s.persistence.latestWritten ∨
      ∃ (i : Nat) (call : Call) (failure : Nat), s.persistence.calls[i]? = some call ∧
        call.phase = .returned failure true ∧ call.request.generation = s.history.mutationGeneration))
    (hbase : Base numerals initial {s with history := {s.history with dirty, savePending}, worker, main}) :
    Synced numerals initial {s with history := {s.history with dirty, savePending}, worker, main} where
  base := hbase
  retained := by
    obtain ⟨latest, hretained⟩ := h.retained
    exact ⟨latest, hretained.setFlags _ _ _ _ _ id⟩
  entries := h.entries
  loading := h.loading
  marked hset := by
    rcases hdirty with hsame | ⟨hcleared, -⟩
    · exact h.marked (hsame.symm.trans hset)
    · exact absurd (hcleared.symm.trans hset) (by simp)
  empty hpending := absurd (hloaded.symm.trans hpending) (by simp)
  current := h.current
  clean _ hclean := by
    cases hbefore : s.history.dirty with
    | false => exact h.clean hloaded hbefore
    | true =>
      rcases hdirty with hsame | ⟨-, hreached⟩
      · exact absurd (hclean.symm.trans (hsame.trans hbefore)) (by simp)
      · obtain ⟨hstored, hsaved⟩ := h.written (h.marked hbefore) hreached
        exact ⟨Or.inr ⟨h.marked hbefore, hstored⟩, hsaved⟩

/-! ### Snapshots and resets -/

/-- The table has changed, and the next generation says so. -/
theorem Synced.mutate (h : Synced numerals initial s) {history : LsmHistoryState}
    (hbase : Base numerals initial {s with history}) (hdirty : history.dirty = true)
    (hgeneration : history.mutationGeneration = s.history.mutationGeneration + 1)
    (hretained : ∃ latest, Retained latest history.generation history)
    (hentries : ∀ e ∈ history.appHistory.rows, Typed e ∧ Writable numerals e) :
    Synced numerals initial {s with history} where
  base := hbase
  retained := hretained
  entries := hentries
  loading := h.loading
  marked _ := by
    show 0 < history.mutationGeneration
    omega
  empty _ hclean := absurd (hdirty.symm.trans hclean) (by simp)
  current r hr hpresent := by
    have hle := h.base.generations r hr
    have hpresent : r.generation = history.mutationGeneration := hpresent
    omega
  clean _ hclean := absurd (hdirty.symm.trans hclean) (by simp)

theorem markDirty_generation {history : LsmHistoryState} (h : history.mutationGeneration < uintMax) :
    (historyMarkDirty history).mutationGeneration = history.mutationGeneration + 1 := by
  simp only [historyMarkDirty, if_pos h]

/-- The entries of a snapshot hold what the C types promise. -/
theorem Synced.ingestTyped (h : Synced numerals initial s) {snapshot : Snapshot} (htimed : snapshot.Timed) :
    ∀ e ∈ (lsmAppHistoryIngest lib s.history snapshot).appHistory.rows, Typed e := by
  obtain ⟨latest, hretained⟩ := h.retained
  exact (lsmAppHistoryIngest_forall lib (P := Typed)
    (fun _ r hr hall => historyEntryGet_typed hall (htimed.2 r hr))
    (fun samples process _ he => he.credit lib (nextGeneration s.history.generation)
      (ingestElapsed_nonneg s.history snapshot.nowMono) htimed.1 samples process)
    hretained.marked.counted fun e he => (h.entries e he).1).2

theorem Synced.ingest (h : Synced numerals initial s) {snapshot : Snapshot} (htimed : snapshot.Timed)
    (hbelow : s.history.mutationGeneration < uintMax) (hgeneration : s.history.generation + 1 < 2 ^ 32)
    (hbase : Base numerals initial {s with history := lsmAppHistoryIngest lib s.history snapshot})
    (hwritable : ∀ e ∈ (lsmAppHistoryIngest lib s.history snapshot).appHistory.rows, Writable numerals e) :
    Synced numerals initial {s with history := lsmAppHistoryIngest lib s.history snapshot} := by
  obtain ⟨latest, hretained⟩ := h.retained
  have hnext := (hretained.ingest lib hgeneration snapshot).1
  have htable : ∃ latest, Retained latest (lsmAppHistoryIngest lib s.history snapshot).generation
      (lsmAppHistoryIngest lib s.history snapshot) := by
    refine ⟨snapshot.keys, ?_⟩
    rw [hnext.generation]
    exact hnext
  have hframe := lsmAppHistoryIngest_frame lib s.history snapshot
  have hentries : ∀ e ∈ (lsmAppHistoryIngest lib s.history snapshot).appHistory.rows, Typed e ∧ Writable numerals e :=
    fun e he => ⟨h.ingestTyped htimed e he, hwritable e he⟩
  by_cases hnone : snapshot.processes = []
  · -- The flag and the generation stay, and at most a trim changes the table.
    have hrecent := lsmAppHistoryIngest_empty lib hretained hgeneration hnone
    simp only [hnone, ne_eq, not_true_eq_false, if_false] at hframe
    have hdirty : (lsmAppHistoryIngest lib s.history snapshot).dirty = s.history.dirty := by rw [hframe]
    have hpending : (lsmAppHistoryIngest lib s.history snapshot).loadPending = s.history.loadPending := by rw [hframe]
    have hmutation : (lsmAppHistoryIngest lib s.history snapshot).mutationGeneration = s.history.mutationGeneration := by
      rw [hframe]
    refine ⟨hbase, htable, hentries, h.loading, ?_, ?_, ?_, ?_⟩
    · intro hset
      show 0 < (lsmAppHistoryIngest lib s.history snapshot).mutationGeneration
      rw [hmutation]
      exact h.marked (hdirty.symm.trans hset)
    · intro hwaiting hclean
      have hnothing := h.empty (hpending.symm.trans hwaiting) (hdirty.symm.trans hclean)
      apply List.eq_nil_iff_forall_not_mem.mpr
      intro e he
      have hmem := hrecent.subset e he
      rw [hnothing] at hmem
      cases hmem
    · intro r hr hpresent
      exact (h.current r hr (hpresent.trans hmutation)).trim hrecent
    · intro hloaded hclean
      obtain ⟨hcalls, hsaved⟩ := h.clean (hpending.symm.trans hloaded) (hdirty.symm.trans hclean)
      refine ⟨?_, hsaved.trim hrecent s.history.appHistory.distinct fun e he => (h.entries e he).2⟩
      show _ ∨ 0 < (lsmAppHistoryIngest lib s.history snapshot).mutationGeneration ∧
        _ = (lsmAppHistoryIngest lib s.history snapshot).mutationGeneration
      rw [hmutation]
      exact hcalls
  · have hdirty : (lsmAppHistoryIngest lib s.history snapshot).dirty = true := by
      rw [hframe]
      exact if_pos hnone
    have hmutation : (lsmAppHistoryIngest lib s.history snapshot).mutationGeneration =
        s.history.mutationGeneration + 1 := by
      rw [hframe]
      exact (if_pos hnone).trans (markDirty_generation hbelow)
    exact h.mutate hbase hdirty hmutation htable hentries

theorem Synced.clear (h : Synced numerals initial s) (hidle : s.main = .idle)
    (hbelow : s.history.mutationGeneration < uintMax) :
    Synced numerals initial {s with history := historyClear s.history} := by
  obtain ⟨latest, hretained⟩ := h.retained
  exact h.mutate (h.base.setHistory hidle _ rfl (le_markDirty _)) rfl (markDirty_generation hbelow)
    ⟨latest, hretained.reset.1⟩ fun e he => absurd he List.not_mem_nil

/-! ### The load -/

variable (lib) in
/-- Merging into an empty table gives what was loaded. -/
theorem historyMergeLoaded_empty {latest : List Text} {history : LsmHistoryState} (h : Marked latest history)
    (hempty : history.appHistory.rows = []) (result : LsmHistoryLoadResult) (run : MergeRun) :
    (historyMergeLoaded lib history result run).appHistory.rows = run.loadedWalk.order result.entries.rows := by
  have hperm := run.loadedWalk.perm result.entries.rows
  have hrows : (mergeAccount lib history result run).appHistory.rows = run.loadedWalk.order result.entries.rows := by
    unfold mergeAccount
    rw [foldl_mergeLoadedEntry_new, hempty, List.nil_append]
    rw [hempty, List.nil_append]
    exact (hperm.map _).nodup_iff.mpr result.entries.distinct
  have hmarked := (foldl_mergeLoadedEntry lib (run.loadedWalk.order result.entries.rows)
    (fun e he => result.unstamped e ((run.loadedWalk.mem _ e).mp he)) h).1
  have hfits : (mergeAccount lib history result run).entryCount ≤ lsmHistoryMaxEntries := by
    have hcount : (mergeAccount lib history result run).entryCount = _ := hmarked.counted
    rw [hcount]
    show (mergeAccount lib history result run).appHistory.rows.length ≤ _
    rw [hrows, hperm.length_eq]
    exact result.bounded
  simp only [historyMergeLoaded, historyTrimToLimit, if_pos hfits]
  split
  · exact hrows
  · exact hrows

/-- There was no file. -/
theorem Synced.mergeAbsent (h : Synced numerals initial s) (hpending : s.history.loadPending = true)
    (hfile : s.persistence.file = none)
    (hbase : Base numerals initial {s with history := {s.history with loadPending := false}, load := .completed}) :
    Synced numerals initial {s with history := {s.history with loadPending := false}, load := .completed} := by
  obtain ⟨latest, hretained⟩ := h.retained
  refine ⟨hbase, ⟨latest, hretained.setFlags _ _ _ _ _ fun hfalse => absurd hfalse (by simp)⟩, h.entries, by simp,
    h.marked, fun hstill => absurd hstill (by simp), h.current, ?_⟩
  intro _ hclean
  refine ⟨Or.inl (h.base.waiting hpending), ?_⟩
  show Saved numerals s.history.appHistory.rows s.persistence.file
  rw [hfile, h.empty hpending hclean]
  exact Saved.of_perm (fun _ => List.Perm.refl _) List.nodup_nil (fun e he => absurd he List.not_mem_nil)
    (Nat.zero_le _)

/-- The file was read: if the flag stays clear, there was nothing to merge it with. -/
theorem Synced.mergeLoaded (h : Synced numerals initial s) (hpending : s.history.loadPending = true)
    (hbelow : s.history.mutationGeneration < uintMax) {bytes : Text} (hfile : s.persistence.file = some bytes)
    (walk : Walk LsmHistoryEntry) (run : MergeRun) {history : LsmHistoryState}
    (hmerged : historyMergeLoaded lib {s.history with loadPending := false} (historyLoadResult numerals walk bytes) run =
      history)
    (hbase : Base numerals initial {s with history, load := .completed})
    (hwritable : ∀ e ∈ history.appHistory.rows, Writable numerals e) :
    Synced numerals initial {s with history, load := .completed} := by
  obtain ⟨latest, hretained⟩ := h.retained
  have hframe := historyMergeLoaded_frame lib {s.history with loadPending := false}
    (historyLoadResult numerals walk bytes) run
  obtain ⟨hnext, hretains⟩ := hretained.merge lib hpending (historyLoadResult numerals walk bytes) run
  rw [hmerged] at hnext hretains
  simp only [hmerged] at hframe
  obtain ⟨marked, hmutation, hdirty⟩ : ∃ marked : Bool,
      history.mutationGeneration =
        (if marked then (historyMarkDirty s.history).mutationGeneration else s.history.mutationGeneration) ∧
      history.dirty = (if marked then true else s.history.dirty) :=
    ⟨_, congrArg LsmHistoryState.mutationGeneration hframe, congrArg LsmHistoryState.dirty hframe⟩
  have hloaded : history.loadPending = false := congrArg LsmHistoryState.loadPending hframe
  refine ⟨hbase, ⟨latest, hnext.generation.symm ▸ hnext⟩, ?_, by simp, ?_,
    fun hstill => absurd (hloaded.symm.trans hstill) (by simp), ?_, ?_⟩
  · intro e he
    refine ⟨?_, hwritable e he⟩
    have hfile := historyLoadPath_loaded numerals walk bytes
    exact foldl_mergeLoadedEntry_forall lib (s := {s.history with loadPending := false}) (fun _ _ => Typed.merge lib) _
      (fun x hx => (hfile.entries x ((run.loadedWalk.mem _ x).mp hx)).typed) (fun x hx => (h.entries x hx).1) e
      (hretains.kept.subset he)
  · intro hset
    show 0 < history.mutationGeneration
    cases marked with
    | true =>
      rw [hmutation, if_pos rfl, markDirty_generation hbelow]
      exact Nat.succ_pos _
    | false =>
      rw [hmutation]
      exact h.marked (hdirty.symm.trans hset)
  · intro r hr
    have hcalls := h.base.waiting hpending
    simp [requests, hcalls] at hr
  · intro _ hclean
    have hclear : s.history.dirty = false := by
      cases marked with
      | true => exact absurd (hdirty.symm.trans hclean) (by simp)
      | false => exact hdirty.symm.trans hclean
    have hrows := historyMergeLoaded_empty lib
      (hretained.setFlags s.history.mutationGeneration s.history.dirty false s.history.savePending s.history.saveAgain
        fun hfalse => absurd hfalse (by simp)).marked
      (h.empty hpending hclear) (historyLoadResult numerals walk bytes) run
    have hperm := run.loadedWalk.perm (historyLoadResult numerals walk bytes).entries.rows
    rw [hmerged] at hrows
    rw [← hrows] at hperm
    refine ⟨Or.inl (h.base.waiting hpending), ?_⟩
    show Saved numerals history.appHistory.rows s.persistence.file
    rw [hfile]
    apply Saved.of_perm _ history.appHistory.distinct hwritable
    · rw [hperm.length_eq]
      exact (historyLoadResult numerals walk bytes).bounded
    · intro walk'
      rw [fileRows, historyLoadPath_walk numerals walk' walk]
      exact hperm.symm

theorem Synced.merge (h : Synced numerals initial s) (hidle : s.main = .idle) {outcome : LoadOutcome}
    (hload : s.load = .finished outcome) (run : MergeRun) (hbelow : s.history.mutationGeneration < uintMax)
    (hwritable : ∀ e ∈ (mergeOutcome lib s.history outcome run).appHistory.rows, Writable numerals e) :
    Synced numerals initial {s with history := mergeOutcome lib s.history outcome run, load := .completed} := by
  have hopen : s.main ≠ .closed := by simp [hidle]
  have hpending := h.base.pending hopen (by simp [hload])
  have hfile := h.base.file hpending
  have hbase : Base numerals initial {s with history := mergeOutcome lib s.history outcome run, load := .completed} :=
    h.base.merge hidle outcome run
  obtain ⟨walk, failed, rfl⟩ := h.base.outcome hopen outcome hload
  cases failed with
  | true => exact absurd hload h.loading
  | false =>
    cases initial with
    | none => exact h.mergeAbsent hpending hfile hbase
    | some bytes => exact h.mergeLoaded hpending hbelow hfile walk run rfl hbase hwritable

/-! ### Saves and their completions -/

theorem Synced.saveSync (h : Synced numerals initial s) {save : SaveRun}
    (hbase : Base numerals initial (lsmHistorySaveSync s save)) : Synced numerals initial (lsmHistorySaveSync s save) := by
  rcases lsmHistorySaveSync_cases s save with hsame | hagain | ⟨hdirty, -, hscheduled⟩
  · rw [hsame]
    exact h
  · rw [hagain] at hbase ⊢
    exact h.setFlags s.worker s.history.savePending true hbase
  · rw [hscheduled] at hbase ⊢
    exact h.schedule hdirty save.walk hbase

theorem Synced.saveComplete (h : Synced numerals initial s) (hidle : s.main = .idle) {i : Nat}
    {request : LsmHistorySaveRequest} {failure : Nat} {written : Bool}
    (hcall : s.persistence.calls[i]? = some ⟨request, .returned failure written⟩) :
    Synced numerals initial {s with
      history := {s.history with
        savePending := false
        dirty := if failure = 0 ∧ written = true ∧ request.generation = s.history.mutationGeneration then false
          else s.history.dirty}
      worker := none} := by
  have hloaded : s.history.loadPending = false := by
    by_contra hpending
    rw [h.base.waiting (by simpa using hpending)] at hcall
    cases hcall
  have hbase := h.base.setHistory hidle {s.history with
    savePending := false
    dirty := if failure = 0 ∧ written = true ∧ request.generation = s.history.mutationGeneration then false
      else s.history.dirty} rfl (Nat.le_refl _)
  apply h.complete hloaded _ (hbase.setWorker none)
  by_cases hpersisted : failure = 0 ∧ written = true ∧ request.generation = s.history.mutationGeneration
  · rw [if_pos hpersisted]
    obtain ⟨-, rfl, hgeneration⟩ := hpersisted
    exact Or.inr ⟨rfl, Or.inr ⟨i, _, failure, hcall, rfl, hgeneration⟩⟩
  · rw [if_neg hpersisted]
    exact Or.inl rfl

theorem Synced.syncComplete (h : Synced numerals initial s) {i : Nat} {request : LsmHistorySaveRequest} {failure : Nat}
    {written closing : Bool} (hsaving : s.main = .saving i closing)
    (hcall : s.persistence.calls[i]? = some ⟨request, .returned failure written⟩)
    (hbase : Base numerals initial (History.syncComplete s request failure written closing)) :
    (History.syncComplete s request failure written closing).main = .closed ∨
      Synced numerals initial (History.syncComplete s request failure written closing) := by
  obtain ⟨hloaded, call, hsame, hgeneration⟩ := h.base.saving i closing hsaving
  rw [hcall] at hsame
  cases hsame
  unfold History.syncComplete at hbase ⊢
  cases closing with
  | true => exact Or.inl rfl
  | false =>
    right
    apply h.complete hloaded _ hbase
    by_cases hpersisted : failure = 0 ∧ (written = true ∨ request.generation ≤ s.persistence.latestWritten)
    · rw [if_pos hpersisted]
      refine Or.inr ⟨rfl, ?_⟩
      rcases hpersisted.2 with rfl | hle
      · exact Or.inr ⟨i, _, failure, hcall, rfl, hgeneration⟩
      · exact Or.inl (hgeneration ▸ hle)
    · rw [if_neg hpersisted]
      exact Or.inl rfl

theorem Synced.destroy (h : Synced numerals initial s) {save : SaveRun}
    (hbase : Base numerals initial (lsmHistoryDestroy s save)) :
    (lsmHistoryDestroy s save).main = .closed ∨ Synced numerals initial (lsmHistoryDestroy s save) := by
  rcases lsmHistoryDestroy_cases s save with hclosed | ⟨hdirty, -, hscheduled⟩
  · rw [hclosed]
    exact Or.inl rfl
  · rw [hscheduled] at hbase ⊢
    exact Or.inr (h.schedule hdirty save.walk hbase)

/-! ### Every step -/

theorem Synced.advance (h : Synced numerals initial s) {i : Nat} {failure : Option Nat} {persistence : Persistence}
    (hadvance : History.advance numerals s.persistence i failure = some persistence)
    (hbase : Base numerals initial {s with persistence}) : Synced numerals initial {s with persistence} where
  base := hbase
  retained := h.retained
  entries := h.entries
  loading := h.loading
  marked := h.marked
  empty := h.empty
  current r hr := by
    have hr : r ∈ requests persistence := hr
    rw [advance_requests hadvance] at hr
    exact h.current r hr
  clean hloaded hclean := by
    obtain ⟨hcalls, hsaved⟩ := h.clean hloaded hclean
    rcases hcalls with hnone | ⟨hpositive, hstored⟩
    · simp [History.advance, hnone] at hadvance
    · obtain ⟨hfile, hwritten⟩ := h.base.ordered.advance_newest hpositive h.base.generations hstored hadvance
      refine ⟨Or.inr ⟨hpositive, hwritten⟩, ?_⟩
      show Saved numerals s.history.appHistory.rows persistence.file
      rw [hfile]
      exact hsaved

/-- What the flag relies on: fewer than `UINT_MAX` mutations and 2^32 snapshots,
clocks within `int64_t`, a load that succeeds, and entries that the file can
hold, with keys free of tabs and line ends. -/
def dirtyRule (lib : Arithmetic) (numerals : Numerals) (s : Session) (a : SessionAction) : Prop :=
  s.history.mutationGeneration < uintMax ∧
  (∀ t ∈ (session lib numerals).step s a, ∀ e ∈ t.history.appHistory.rows, Writable numerals e) ∧
  match a with
  | .ingest snapshot => snapshot.Timed ∧ s.history.generation + 1 < 2 ^ 32
  | .readFile _ failed => failed = false
  | _ => True

theorem lsmHistorySave_table (s : Session) (save : SaveRun) :
    (lsmHistorySave s save).history.appHistory = s.history.appHistory := by
  rcases lsmHistorySave_cases s save with hsame | hagain | ⟨-, -, -, hscheduled⟩
  · rw [hsame]
  · rw [hagain]
  · rw [hscheduled]

theorem saveIfAgain_table (s : Session) (save : SaveRun) :
    (saveIfAgain s save).history.appHistory = s.history.appHistory := by
  unfold saveIfAgain
  split
  · exact lsmHistorySave_table _ save
  · rfl

/-- Until the history is destroyed. -/
theorem Synced.step (h : Synced numerals initial s) {a : SessionAction} (hrule : dirtyRule lib numerals s a)
    (hstep : (session lib numerals).step s a = some t) : t.main = .closed ∨ Synced numerals initial t := by
  obtain ⟨hbelow, hwritable, hinput⟩ := hrule
  have hwritable := hwritable t hstep
  have hbase := h.base.step hstep
  cases session_step hstep with
  | ingest snapshot hidle => exact Or.inr (h.ingest hinput.1 hbelow hinput.2 hbase hwritable)
  | readFile walk failed hreading =>
    right
    refine ⟨hbase, h.retained, h.entries, ?_, h.marked, h.empty, h.current, h.clean⟩
    have hworked : failed = false := hinput
    subst hworked
    cases s.persistence.file <;> simp [loadOutcome]
  | loadComplete outcome run save hidle hload =>
    right
    unfold historyLoadComplete at hwritable ⊢
    rw [saveIfAgain_table] at hwritable
    exact (h.merge hidle hload run hbelow hwritable).saveIfAgain hidle save
  | save save hidle => exact Or.inr (h.save hidle save)
  | saveSync save hidle => exact Or.inr (h.saveSync hbase)
  | reset save hidle => exact Or.inr ((h.clear hidle hbelow).save hidle save)
  | saveComplete i request failure written save hidle hcall =>
    exact Or.inr ((h.saveComplete hidle hcall).saveIfAgain hidle save)
  | syncComplete i request failure written closing hsaving hcall => exact h.syncComplete hsaving hcall hbase
  | destroy save hidle => exact h.destroy hbase
  | write i failure persistence hadvance => exact Or.inr (h.advance hadvance hbase)

/-- Nothing brings a destroyed history back. -/
theorem closed_step {a : SessionAction} (hclosed : s.main = .closed) (hstep : (session lib numerals).step s a = some t) :
    t.main = .closed := by
  cases session_step hstep with
  | ingest snapshot hidle => exact absurd (hclosed.symm.trans hidle) (by simp)
  | readFile walk failed hreading => exact hclosed
  | loadComplete outcome run save hidle hload => exact absurd (hclosed.symm.trans hidle) (by simp)
  | save save hidle => exact absurd (hclosed.symm.trans hidle) (by simp)
  | saveSync save hidle => exact absurd (hclosed.symm.trans hidle) (by simp)
  | reset save hidle => exact absurd (hclosed.symm.trans hidle) (by simp)
  | saveComplete i request failure written save hidle hcall => exact absurd (hclosed.symm.trans hidle) (by simp)
  | syncComplete i request failure written closing hsaving hcall => exact absurd (hclosed.symm.trans hsaving) (by simp)
  | destroy save hidle => exact absurd (hclosed.symm.trans hidle) (by simp)
  | write i failure persistence hadvance => exact hclosed

end

/-- **The dirty flag.** In every schedule of snapshots, the merge, resets, saves
and their completions: when the flag is clear and no load is pending, a load of
the file gives the entries of the table as the file says them, or the most
recent of them when the table is above the limit. -/
theorem dirty_flag (lib : Arithmetic) (numerals : Numerals) (initial : Option Text) (actions : List SessionAction)
    {s : Session} (hrun : (session lib numerals).run (.start initial) actions = some s)
    (hrule : (session lib numerals).Admissible (dirtyRule lib numerals) (.start initial) actions)
    (hopen : s.main ≠ .closed) (hclean : s.history.dirty = false) (hloaded : s.history.loadPending = false)
    (walk : Walk LsmHistoryEntry) :
    Newest historyEntryRecencyCompare lsmHistoryMaxEntries (s.history.appHistory.rows.map (persisted numerals))
      ((fileRows numerals walk s.persistence.file).map (persisted numerals)) ∧
    (s.history.appHistory.rows.length ≤ lsmHistoryMaxEntries →
      ((fileRows numerals walk s.persistence.file).map (persisted numerals)).Perm
        (s.history.appHistory.rows.map (persisted numerals))) := by
  have hend : s.main = .closed ∨ Synced numerals initial s := by
    apply (session lib numerals).run_invariant (dirtyRule lib numerals)
      (fun s => s.main = .closed ∨ Synced numerals initial s) _ (Or.inr (.start numerals initial)) hrule hrun
    intro s a t h ha hstep
    rcases h with hclosed | hsynced
    · exact Or.inl (closed_step hclosed hstep)
    · exact hsynced.step ha hstep
  obtain ⟨-, hsaved⟩ := (hend.resolve_left hopen).clean hloaded hclean
  refine ⟨hsaved walk, ?_⟩
  intro hfits
  apply (hsaved walk).whole
  rwa [List.length_map]

instance (numerals : Numerals) (e : LsmHistoryEntry) : Decidable (Storable numerals e) :=
  decidable_of_iff (numerals.sixDecimals e.cpuSeconds ≤ secondsLimit ∧
      numerals.sixDecimals e.activeSeconds ≤ secondsLimit ∧
      ∀ fields ∈ recordFields numerals (persistEntry e), (Lines.join 9 fields).length < lineRoom)
    ⟨fun h => ⟨h.1, h.2.1, h.2.2⟩, fun h => ⟨h.cpuSeconds, h.activeSeconds, h.line⟩⟩

instance (numerals : Numerals) (e : LsmHistoryEntry) : Decidable (Writable numerals e) :=
  decidable_of_iff (e.key.all (fun b => b != 9 && b != 10 && b != 13) = true ∧ Storable numerals e)
    ⟨fun h => ⟨by simpa [and_assoc] using h.1, h.2⟩, fun h => ⟨by simpa [and_assoc] using h.key, h.storable⟩⟩

instance (snapshot : Snapshot) : Decidable snapshot.Timed := inferInstanceAs (Decidable (_ ∧ _))

instance (lib : Arithmetic) (numerals : Numerals) (s : Session) :
    (a : SessionAction) → Decidable (dirtyRule lib numerals s a)
  | .ingest _ => inferInstanceAs (Decidable (_ ∧ _ ∧ _ ∧ _))
  | .readFile .. => inferInstanceAs (Decidable (_ ∧ _ ∧ _ = _))
  | .loadComplete .. | .save _ | .saveSync _ | .reset _ | .saveComplete _ | .syncComplete | .destroy _ | .write .. =>
    inferInstanceAs (Decidable (_ ∧ _ ∧ True))

/-- Snapshots after the load, and a save that is carried through. -/
def savedRun (snapshots : List Snapshot) : List SessionAction :=
  loadActions ++ snapshots.map .ingest ++ .save saveStored :: (List.replicate 10 (.write 0 none) ++
    [.saveComplete saveStored])

/-- A process that has used so much of the CPU. -/
def namedProcess (name : Chars 128) (cpuTimeNanoseconds : Nat) : Snapshot where
  processes :=
    [⟨{pid := 7, instanceId := 100, account := some 1000, name, executable := plainProgram, cpuTimeNanoseconds}, 50⟩]
  nowMono := 1
  nowEpoch := 50
  walk := .stored
  allocated := true

def plainName : Chars 128 := ⟨ascii "a", by decide, by decide⟩
def tabbedName : Chars 128 := ⟨ascii "a\tb", by decide, by decide⟩

theorem dirty_flag_saved :
    ∃ s, (session .documented .documented).run (.start earlierFile) (savedRun [namedProcess plainName 0]) = some s ∧
      s.history.dirty = false ∧ s.history.appHistory.rows.length = 1 ∧
      ((fileRows .documented .stored s.persistence.file).map (persisted .documented)).Perm
        (s.history.appHistory.rows.map (persisted .documented)) := by
  have hrule : (session .documented .documented).Admissible (dirtyRule .documented .documented) (.start earlierFile)
      (savedRun [namedProcess plainName 0]) := by decide +kernel
  have hfacts : ((session .documented .documented).run (.start earlierFile) (savedRun [namedProcess plainName 0])).map
      (fun s => decide (s.main = .idle ∧ s.history.dirty = false ∧ s.history.loadPending = false ∧
        s.history.appHistory.rows.length = 1)) = some true := by decide +kernel
  obtain ⟨s, hrun, hidle, hclean, hloaded, hone⟩ := (session .documented .documented).run_decided hfacts
  have hflag := dirty_flag .documented .documented earlierFile _ hrun hrule (by simp [hidle]) hclean hloaded .stored
  exact ⟨s, hrun, hclean, hone, hflag.2 (by rw [hone]; decide)⟩

/-- What an earlier run may have left: an entry at the loader's limit of seconds. -/
def limitFile : Option Text :=
  requestOutput .documented ⟨[persistEntry {earlierEntry with cpuSeconds := secondsLimit}], 1⟩

/-- The flag is clear, but a name with a tab is not the one in the file; and an
entry that has grown out of the loader's range is not loaded at all. -/
theorem tabbed_name_replaced :
    (∃ s, (session .documented .documented).run (.start none) (savedRun [namedProcess tabbedName 0]) = some s ∧
      s.history.dirty = false ∧ s.history.loadPending = false ∧ s.history.mutationGeneration < uintMax ∧
      (∀ e ∈ s.history.appHistory.rows, ∀ b ∈ e.key, b ≠ 9 ∧ b ≠ 10 ∧ b ≠ 13) ∧
      s.history.appHistory.rows.map (·.name) = [ascii "a\tb"] ∧
      (fileRows .documented .stored s.persistence.file).map (·.name) = [ascii "a b"]) ∧
    ∃ s, (session .documented .documented).run (.start limitFile)
        (savedRun [namedProcess plainName 0, namedProcess plainName (2 ^ 64 - 1)]) = some s ∧
      s.history.dirty = false ∧ s.history.loadPending = false ∧ s.history.mutationGeneration < uintMax ∧
      (∀ e ∈ s.history.appHistory.rows, ∀ b ∈ e.key, b ≠ 9 ∧ b ≠ 10 ∧ b ≠ 13) ∧
      s.history.appHistory.rows.map (·.name) = [ascii "a"] ∧
      fileRows .documented .stored s.persistence.file = [] := by
  have htabbed : ((session .documented .documented).run (.start none) (savedRun [namedProcess tabbedName 0])).map
      (fun s => decide (s.history.dirty = false ∧ s.history.loadPending = false ∧
        s.history.mutationGeneration < uintMax ∧
        (∀ e ∈ s.history.appHistory.rows, ∀ b ∈ e.key, b ≠ 9 ∧ b ≠ 10 ∧ b ≠ 13) ∧
        s.history.appHistory.rows.map (·.name) = [ascii "a\tb"] ∧
        (fileRows .documented .stored s.persistence.file).map (·.name) = [ascii "a b"])) = some true := by
    decide +kernel
  have hlimit : ((session .documented .documented).run (.start limitFile)
      (savedRun [namedProcess plainName 0, namedProcess plainName (2 ^ 64 - 1)])).map
      (fun s => decide (s.history.dirty = false ∧ s.history.loadPending = false ∧
        s.history.mutationGeneration < uintMax ∧
        (∀ e ∈ s.history.appHistory.rows, ∀ b ∈ e.key, b ≠ 9 ∧ b ≠ 10 ∧ b ≠ 13) ∧
        s.history.appHistory.rows.map (·.name) = [ascii "a"] ∧
        fileRows .documented .stored s.persistence.file = [])) = some true := by
    decide +kernel
  exact ⟨(session .documented .documented).run_decided htabbed, (session .documented .documented).run_decided hlimit⟩

end SystemMonitor.History
