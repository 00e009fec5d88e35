import SystemMonitor.History.RoundTrip

/-! What is kept of a history that is too large.

`trim_paths_agree`: a table over the limit loses the same entries whether its candidates are
sorted in an array or, for want of memory, the oldest is searched for again and again.
`load_keeps_newest`: a loader that sees the rows one by one ends with the most recent of
them, in whatever order they come. -/
namespace SystemMonitor.History
open Lib Process

/-! ### Two ways of trimming -/

theorem removeOldestLoop_flag (walk : Walk LsmHistoryEntry) (protectedGeneration fuel : Nat) (s : LsmHistoryState) :
    let t := removeOldestLoop walk protectedGeneration fuel s
    t.1.entryCount ≤ s.entryCount ∧ (t.2 = true → t.1.entryCount < s.entryCount) := by
  induction fuel generalizing s with
  | zero => exact ⟨Nat.le_refl _, fun h => by cases h⟩
  | succ fuel ih =>
    rw [removeOldestLoop]
    by_cases hover : lsmHistoryMaxEntries < s.entryCount
    · rw [if_pos hover]
      cases hremove : historyRemoveOldest walk s protectedGeneration with
      | none => exact ⟨Nat.le_refl _, fun h => by cases h⟩
      | some t =>
        obtain ⟨e, -, -, -, rfl⟩ := historyRemoveOldest_some hremove
        have hloop := (ih {s with appHistory := s.appHistory.erase [e.key], entryCount := s.entryCount - 1}).1
        dsimp only at hloop ⊢
        exact ⟨by omega, fun _ => by omega⟩
    · rw [if_neg hover]
      exact ⟨Nat.le_refl _, fun h => by cases h⟩

/-- The value tells whether the count went down. -/
theorem historyTrimToLimit_flag (walk : Walk LsmHistoryEntry) (allocated : Bool) {s : LsmHistoryState}
    (hcount : s.entryCount = s.appHistory.rows.length) (protectedGeneration : Nat) :
    let t := historyTrimToLimit walk allocated s protectedGeneration
    t.2 = decide (t.1.entryCount < s.entryCount) := by
  have htrimmed := historyTrimToLimit_trimmed walk allocated hcount protectedGeneration
  intro t
  cases hflag : t.2 with
  | false =>
    have hsame : t.1 = s := htrimmed.unchanged hflag
    rw [hsame, decide_eq_false (Nat.lt_irrefl _)]
  | true =>
    refine (decide_eq_true ?_).symm
    have ht : t = historyTrimToLimit walk allocated s protectedGeneration := rfl
    unfold historyTrimToLimit at ht
    split at ht
    · rw [ht] at hflag
      cases hflag
    · split at ht
      · rw [ht] at hflag ⊢
        rw [trimBatch, decide_eq_true_iff] at hflag
        simp only [trimBatch]
        omega
      · rw [ht] at hflag ⊢
        exact (removeOldestLoop_flag walk protectedGeneration s.entryCount s).2 hflag

/-- **The array of candidates makes no difference.** On a table with its size beside it, the
one sort and the repeated search leave the same table, the same count and the same value,
however each of them happens to walk the table. -/
theorem trim_paths_agree (walk walk' : Walk LsmHistoryEntry) (s : LsmHistoryState) (table : Entries)
    (protectedGeneration : Nat) :
    let full : LsmHistoryState := {s with appHistory := table, entryCount := table.rows.length}
    historyTrimToLimit walk true full protectedGeneration = historyTrimToLimit walk' false full protectedGeneration := by
  intro full
  have hcount : full.entryCount = full.appHistory.rows.length := rfl
  have hbatch := historyTrimToLimit_trimmed walk true hcount protectedGeneration
  have hloop := historyTrimToLimit_trimmed walk' false hcount protectedGeneration
  have hflag := historyTrimToLimit_flag walk true hcount protectedGeneration
  have hflag' := historyTrimToLimit_flag walk' false hcount protectedGeneration
  have hlength := hbatch.evicted.length_eq hloop.evicted table.nodup hbatch.fits hloop.fits
    (length_historyTrimToLimit walk true hcount protectedGeneration)
    (length_historyTrimToLimit walk' false hcount protectedGeneration)
  have hrows := hbatch.evicted.unique hloop.evicted table.nodup hlength fun x hx y hy hxy hyx =>
    table.eq_of_key hx hy (eq_key_of_recency hxy hyx)
  have hcounts : (historyTrimToLimit walk true full protectedGeneration).1.entryCount =
      (historyTrimToLimit walk' false full protectedGeneration).1.entryCount := by
    rw [hbatch.counted, hloop.counted, hlength]
  refine Prod.ext ?_ ?_
  · rw [hbatch.frame, hloop.frame, Table.ext_rows hrows, hcounts]
  · rw [hflag, hflag', hcounts]

/-! ### Loading row by row -/

section
variable (numerals : Numerals)

/-- A line that the loader takes for a record, with its entry. -/
structure Row where
  line : Text
  entry : LsmHistoryEntry
  record : ¬(line = [] ∨ line.head? = some 35)
  loaded : loadedEntry numerals (Lines.strsplit 9 11 line) = some entry

/-- Rows of pairwise distinct keys, in the order of a file. -/
structure Rows where
  rows : List (Row numerals)
  distinct : (rows.map fun row => row.entry.key).Nodup

variable {numerals}

def Rows.entries (file : Rows numerals) : List LsmHistoryEntry := file.rows.map Row.entry

/-- The entries by `(last_seen, first_seen, key)`, the greatest first, as many as the limit allows. -/
def Rows.mostRecent (file : Rows numerals) : List LsmHistoryEntry :=
  (file.entries.insertionSort fun a b => NotNewer b a).take lsmHistoryMaxEntries

/-- The loader over the rows, from an empty table. -/
def Rows.load (file : Rows numerals) (walk : Walk LsmHistoryEntry) : LsmHistoryState × Bool :=
  (file.rows.map Row.line).foldl (historyLoadLine numerals walk) ({}, false)

theorem Rows.distinctKeys (file : Rows numerals) : (file.entries.map LsmHistoryEntry.key).Nodup := by
  rw [Rows.entries, List.map_map]
  exact file.distinct

theorem Rows.nodup (file : Rows numerals) : file.entries.Nodup := List.Nodup.of_map _ file.distinctKeys

/-- The flag goes up with the first row that finds the table full. -/
theorem historyLoadLine_flag (walk : Walk LsmHistoryEntry) {seen : List LsmHistoryEntry} {acc : LsmHistoryState × Bool}
    (h : Keeps seen acc) (row : Row numerals) (hnew : row.entry.key ∉ seen.map LsmHistoryEntry.key)
    (hflag : acc.2 = decide (lsmHistoryMaxEntries < seen.length)) :
    (historyLoadLine numerals walk acc row.line).2 = decide (lsmHistoryMaxEntries < (seen ++ [row.entry]).length) := by
  have hfind : acc.1.appHistory.find? row.entry.key = none :=
    Table.find?_eq_none.mpr fun x hx hkey => hnew (List.mem_map.mpr ⟨x, h.newest.subset x hx, hkey⟩)
  have hcount : acc.1.entryCount = min seen.length lsmHistoryMaxEntries := h.counted.trans h.newest.length
  have hover : ∀ s : LsmHistoryState, (loadOverLimit walk s row.entry).2 = true := by
    intro s
    unfold loadOverLimit
    split
    · rfl
    · split
      · rfl
      · split <;> rfl
  have hrecord : (historyLoadRecord numerals walk acc.1 row.line).2 = decide (lsmHistoryMaxEntries ≤ acc.1.entryCount) := by
    simp only [historyLoadRecord, if_neg row.record, row.loaded, hfind, Option.isSome_none, Bool.false_eq_true, if_false]
    split
    next hfull => rw [hover, decide_eq_true hfull]
    next hroom => rw [decide_eq_false hroom]
  rw [historyLoadLine]
  dsimp only
  rw [hrecord, hflag, ← Bool.decide_or, List.length_append, List.length_singleton, hcount]
  exact decide_eq_decide.mpr (by omega)

/-- The rows read so far, the table and the flag. -/
theorem load_spec (walk : Walk LsmHistoryEntry) (file : Rows numerals) :
    Keeps file.entries (file.load walk) ∧ (file.load walk).2 = decide (lsmHistoryMaxEntries < file.entries.length) := by
  obtain ⟨rows, hdistinct⟩ := file
  unfold Rows.entries Rows.load
  dsimp only
  induction rows using List.reverseRecOn with
  | nil => exact ⟨⟨rfl, Newest.refl List.nodup_nil (Nat.zero_le _)⟩, rfl⟩
  | append_singleton rows row ih =>
    rw [List.map_append, List.nodup_append] at hdistinct
    obtain ⟨hkeeps, hflag⟩ := ih hdistinct.1
    have hnew : row.entry.key ∉ (rows.map Row.entry).map LsmHistoryEntry.key := by
      intro hmem
      rw [List.map_map] at hmem
      exact hdistinct.2.2 _ hmem _ (List.mem_singleton_self _) rfl
    rw [List.map_append, List.map_append, List.foldl_append]
    exact ⟨hkeeps.line walk row.record row.loaded hnew, historyLoadLine_flag walk hkeeps row hnew hflag⟩

instance newerTrans : IsTrans LsmHistoryEntry fun a b => NotNewer b a := ⟨fun _ _ _ hab hbc => Std.TransCmp.isLE_trans hbc hab⟩

instance newerTotal : Std.Total fun a b : LsmHistoryEntry => NotNewer b a := ⟨fun a b => Std.Total.total b a⟩

theorem Rows.mostRecent_newest (file : Rows numerals) : Recent file.entries file.mostRecent :=
  newest_take (List.perm_insertionSort _ _) file.nodup (List.pairwise_insertionSort (fun a b => NotNewer b a) _) _

/-- Entries of different keys are told apart by the order. -/
theorem Rows.antisymm (file : Rows numerals) : ∀ x ∈ file.entries, ∀ y ∈ file.entries,
    (historyEntryRecencyCompare x y).isLE = true → (historyEntryRecencyCompare y x).isLE = true → x = y := by
  intro x hx y hy hxy hyx
  exact List.inj_on_of_nodup_map file.distinctKeys hx hy (eq_key_of_recency hxy hyx)

/-- **Loading keeps the most recent rows.** For any rows of distinct keys the table holds the
greatest of them by the recency order, as many as the limit allows, whatever the order of
the rows and of the table's walk, and the flag tells whether a row was left out. -/
theorem load_keeps_newest (walk : Walk LsmHistoryEntry) (file : Rows numerals) :
    (file.load walk).1.appHistory.rows.Perm file.mostRecent ∧
    (file.load walk).1.entryCount = min file.entries.length lsmHistoryMaxEntries ∧
    ((file.load walk).2 = true ↔ ∃ e ∈ file.entries, e ∉ (file.load walk).1.appHistory.rows) ∧
    ∀ (walk' : Walk LsmHistoryEntry) (other : Rows numerals), other.rows.Perm file.rows →
      (other.load walk').1.appHistory.rows.Perm (file.load walk).1.appHistory.rows ∧
      (other.load walk').2 = (file.load walk).2 := by
  obtain ⟨hkeeps, hflag⟩ := load_spec walk file
  refine ⟨hkeeps.newest.unique file.mostRecent_newest file.antisymm, hkeeps.counted.trans hkeeps.newest.length, ?_, ?_⟩
  · rw [hflag, decide_eq_true_iff, hkeeps.newest.left_out_iff file.nodup]
  · intro walk' other hperm
    obtain ⟨hkeeps', hflag'⟩ := load_spec walk' other
    have hentries : other.entries.Perm file.entries := hperm.map _
    refine ⟨(hkeeps'.newest.perm hentries (List.Perm.refl _)).unique hkeeps.newest file.antisymm, ?_⟩
    rw [hflag, hflag', hentries.length_eq]

end

end SystemMonitor.History
