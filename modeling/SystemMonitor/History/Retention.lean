import SystemMonitor.Lib.Machine
import SystemMonitor.History.Ingest

/-! The retention bound.

The count is maintained by hand wherever an entry comes or goes, and eviction is
decided by a generation stamp that loaded entries do not carry. Over any run of
snapshots, resets and the one merge of the persisted file the count is the size
of the table, the table is within the limit or holds nothing but identities of
the current snapshot, none of which is ever evicted, and what is evicted is the
least recent (`retention`). -/
namespace SystemMonitor.History
open Lib Process

/-! ### Trimming -/

/-- At most as recent. -/
def NotNewer (a b : LsmHistoryEntry) : Prop := (historyEntryRecencyCompare a b).isLE = true

instance : DecidableRel NotNewer := fun _ _ => inferInstanceAs (Decidable (_ = true))

instance : IsTrans LsmHistoryEntry NotNewer := ⟨fun _ _ _ => Std.TransCmp.isLE_trans⟩

instance : Std.Total NotNewer where
  total a b := by
    unfold NotNewer
    cases h : historyEntryRecencyCompare a b with
    | lt => exact Or.inl rfl
    | eq => exact Or.inl rfl
    | gt =>
      right
      have hswap : historyEntryRecencyCompare b a = (historyEntryRecencyCompare a b).swap := Std.OrientedCmp.eq_swap
      rw [hswap, h]
      rfl

theorem sortedCandidates_perm (walk : Walk LsmHistoryEntry) (s : LsmHistoryState) (protectedGeneration : Nat) :
    (sortedCandidates walk s protectedGeneration).Perm
      (s.appHistory.rows.filter fun e => !shielded protectedGeneration e) :=
  (List.perm_insertionSort _ _).trans ((walk.perm _).filter _)

theorem sortedCandidates_sorted (walk : Walk LsmHistoryEntry) (s : LsmHistoryState) (protectedGeneration : Nat) :
    (sortedCandidates walk s protectedGeneration).Pairwise NotNewer :=
  List.pairwise_insertionSort NotNewer _

/-- What trimming may do: only the table and its count change, the count stays
right, and the flag tells whether something went. -/
structure Trimmed (protectedGeneration : Nat) (s : LsmHistoryState) (t : LsmHistoryState × Bool) : Prop where
  frame : t.1 = {s with appHistory := t.1.appHistory, entryCount := t.1.entryCount}
  counted : t.1.entryCount = t.1.appHistory.rows.length
  evicted : Evicted (shielded protectedGeneration) historyEntryRecencyCompare s.appHistory.rows t.1.appHistory.rows
  fits : Fits (shielded protectedGeneration) lsmHistoryMaxEntries t.1.appHistory.rows
  unchanged : t.2 = false → t.1 = s

theorem trimBatch_trimmed (walk : Walk LsmHistoryEntry) {s : LsmHistoryState}
    (hcount : s.entryCount = s.appHistory.rows.length) (protectedGeneration : Nat) :
    Trimmed protectedGeneration s (trimBatch walk s protectedGeneration) := by
  have hperm := sortedCandidates_perm walk s protectedGeneration
  have hlength := length_batch s.appHistory hperm
    (min (s.entryCount - lsmHistoryMaxEntries) (sortedCandidates walk s protectedGeneration).length)
  refine ⟨rfl, ?_, ?_, ?_, ?_⟩
  · simp only [trimBatch]
    omega
  · exact evicted_batch s.appHistory hperm (sortedCandidates_sorted walk s protectedGeneration) _
  · simp only [trimBatch]
    by_cases hexcess : s.entryCount - lsmHistoryMaxEntries ≤ (sortedCandidates walk s protectedGeneration).length
    · left
      omega
    · -- Every candidate went, so whatever is left is shielded.
      right
      intro x hx
      obtain ⟨hrow, hkey⟩ := Table.mem_erase.mp hx
      by_contra hopen
      apply hkey
      apply List.mem_map_of_mem
      rw [List.take_of_length_le (by omega)]
      exact hperm.mem_iff.mpr (List.mem_filter.mpr ⟨hrow, by simpa using hopen⟩)
  · intro hnone
    simp only [trimBatch, decide_eq_false_iff_not] at hnone ⊢
    have hall : s.appHistory.erase ((List.take (min (s.entryCount - lsmHistoryMaxEntries)
        (sortedCandidates walk s protectedGeneration).length)
        (sortedCandidates walk s protectedGeneration)).map LsmHistoryEntry.key) = s.appHistory := by
      apply Table.ext_rows
      apply List.Sublist.eq_of_length List.filter_sublist
      show (s.appHistory.erase _).rows.length = _
      omega
    rw [hall, Nat.sub_self, Nat.sub_zero]

/-- One removal of the oldest entry. -/
theorem historyRemoveOldest_some {walk : Walk LsmHistoryEntry} {s t : LsmHistoryState} {protectedGeneration : Nat}
    (h : historyRemoveOldest walk s protectedGeneration = some t) :
    ∃ e ∈ s.appHistory.rows, shielded protectedGeneration e = false ∧
      (∀ x ∈ s.appHistory.rows, shielded protectedGeneration x = false →
        (historyEntryRecencyCompare e x).isLE = true) ∧
      t = {s with appHistory := s.appHistory.erase [e.key], entryCount := s.entryCount - 1} := by
  unfold historyRemoveOldest historyOldestKey at h
  by_cases hempty : s.entryCount = 0
  · simp [hempty] at h
  · rw [if_neg hempty] at h
    cases hold : oldest (shielded protectedGeneration) historyEntryRecencyCompare (walk.order s.appHistory.rows) with
    | none => simp [hold] at h
    | some e =>
      obtain ⟨hmem, hopen, hle⟩ := (oldest_spec _ _ (walk.order s.appHistory.rows)).2 e hold
      refine ⟨e, (walk.mem _ e).mp hmem, hopen, fun x hx => hle x ((walk.mem _ x).mpr hx), ?_⟩
      simpa [hold, eq_comm] using h

theorem historyRemoveOldest_none {walk : Walk LsmHistoryEntry} {s : LsmHistoryState} {protectedGeneration : Nat}
    (h : historyRemoveOldest walk s protectedGeneration = none) :
    s.entryCount = 0 ∨ ∀ x ∈ s.appHistory.rows, shielded protectedGeneration x = true := by
  unfold historyRemoveOldest historyOldestKey at h
  by_cases hempty : s.entryCount = 0
  · exact Or.inl hempty
  · rw [if_neg hempty] at h
    right
    cases hold : oldest (shielded protectedGeneration) historyEntryRecencyCompare (walk.order s.appHistory.rows) with
    | none =>
      intro x hx
      exact (oldest_spec _ _ (walk.order s.appHistory.rows)).1 hold x ((walk.mem _ x).mpr hx)
    | some e => simp [hold] at h

/-- The loop, from a state that an eviction may already have led to. -/
theorem removeOldestLoop_spec (walk : Walk LsmHistoryEntry) (protectedGeneration : Nat) (before : List LsmHistoryEntry)
    (fuel : Nat) (s : LsmHistoryState) (hcount : s.entryCount = s.appHistory.rows.length)
    (hfuel : s.entryCount ≤ fuel)
    (hevicted : Evicted (shielded protectedGeneration) historyEntryRecencyCompare before s.appHistory.rows) :
    let t := removeOldestLoop walk protectedGeneration fuel s
    t.1.entryCount = t.1.appHistory.rows.length ∧
    Evicted (shielded protectedGeneration) historyEntryRecencyCompare before t.1.appHistory.rows ∧
    Fits (shielded protectedGeneration) lsmHistoryMaxEntries t.1.appHistory.rows ∧ (t.2 = false → t.1 = s) := by
  induction fuel generalizing s with
  | zero =>
    refine ⟨hcount, hevicted, Or.inl ?_, fun _ => rfl⟩
    show s.appHistory.rows.length ≤ _
    omega
  | succ fuel ih =>
    simp only [removeOldestLoop]
    by_cases hover : lsmHistoryMaxEntries < s.entryCount
    · rw [if_pos hover]
      cases hremove : historyRemoveOldest walk s protectedGeneration with
      | none =>
        refine ⟨hcount, hevicted, ?_, fun _ => rfl⟩
        rcases historyRemoveOldest_none hremove with hzero | hall
        · left
          show s.appHistory.rows.length ≤ _
          omega
        · exact Or.inr hall
      | some s' =>
        obtain ⟨e, he, hopen, hle, rfl⟩ := historyRemoveOldest_some hremove
        have hlength := s.appHistory.length_erase [e] (List.nodup_singleton _) (by simpa using he)
        simp only [List.map_cons, List.map_nil, List.length_cons, List.length_nil] at hlength
        have hloop := ih {s with appHistory := s.appHistory.erase [e.key], entryCount := s.entryCount - 1}
          (by show s.entryCount - 1 = (s.appHistory.erase [e.key]).rows.length; omega)
          (by show s.entryCount - 1 ≤ fuel; omega) (hevicted.step he hopen hle)
        obtain ⟨hcounted, hevict, hfits, -⟩ := hloop
        exact ⟨hcounted, hevict, hfits, fun h => absurd h (by simp)⟩
    · rw [if_neg hover]
      refine ⟨hcount, hevicted, Or.inl ?_, fun _ => rfl⟩
      show s.appHistory.rows.length ≤ _
      omega

theorem historyTrimToLimit_trimmed (walk : Walk LsmHistoryEntry) (allocated : Bool) {s : LsmHistoryState}
    (hcount : s.entryCount = s.appHistory.rows.length) (protectedGeneration : Nat) :
    Trimmed protectedGeneration s (historyTrimToLimit walk allocated s protectedGeneration) := by
  have hframe := historyTrimToLimit_frame walk allocated s protectedGeneration
  unfold historyTrimToLimit at hframe ⊢
  by_cases hwithin : s.entryCount ≤ lsmHistoryMaxEntries
  · rw [if_pos hwithin]
    exact ⟨rfl, hcount, Evicted.refl .., Or.inl (hcount ▸ hwithin), fun _ => rfl⟩
  · rw [if_neg hwithin] at hframe ⊢
    cases allocated with
    | true => exact trimBatch_trimmed walk hcount protectedGeneration
    | false =>
      obtain ⟨hcounted, hevicted, hfits, hsame⟩ := removeOldestLoop_spec walk protectedGeneration
        s.appHistory.rows s.entryCount s hcount (Nat.le_refl _) (Evicted.refl ..)
      exact ⟨hframe, hcounted, hevicted, hfits, hsame⟩

/-- The loop removes nothing from a table that fits. -/
theorem length_removeOldestLoop (walk : Walk LsmHistoryEntry) (protectedGeneration fuel : Nat) {s : LsmHistoryState}
    (hcount : s.entryCount = s.appHistory.rows.length) :
    min s.appHistory.rows.length lsmHistoryMaxEntries ≤
      (removeOldestLoop walk protectedGeneration fuel s).1.appHistory.rows.length := by
  induction fuel generalizing s with
  | zero => exact Nat.min_le_left ..
  | succ fuel ih =>
    simp only [removeOldestLoop]
    by_cases hover : lsmHistoryMaxEntries < s.entryCount
    · rw [if_pos hover]
      cases hremove : historyRemoveOldest walk s protectedGeneration with
      | none => exact Nat.min_le_left ..
      | some s' =>
        obtain ⟨e, he, -, -, rfl⟩ := historyRemoveOldest_some hremove
        have hlength := s.appHistory.length_erase [e] (List.nodup_singleton _) (by simpa using he)
        simp only [List.map_cons, List.map_nil, List.length_cons, List.length_nil] at hlength
        have hloop := ih (s := {s with appHistory := s.appHistory.erase [e.key], entryCount := s.entryCount - 1})
          (by show s.entryCount - 1 = (s.appHistory.erase [e.key]).rows.length; omega)
        simp only at hloop ⊢
        omega
    · rw [if_neg hover]
      exact Nat.min_le_left ..

/-- Trimming goes no further than the limit. -/
theorem length_historyTrimToLimit (walk : Walk LsmHistoryEntry) (allocated : Bool) {s : LsmHistoryState}
    (hcount : s.entryCount = s.appHistory.rows.length) (protectedGeneration : Nat) :
    min s.appHistory.rows.length lsmHistoryMaxEntries ≤
      (historyTrimToLimit walk allocated s protectedGeneration).1.appHistory.rows.length := by
  unfold historyTrimToLimit
  split
  · exact Nat.min_le_left ..
  · cases allocated with
    | true =>
      have hlength := length_batch s.appHistory (sortedCandidates_perm walk s protectedGeneration)
        (min (s.entryCount - lsmHistoryMaxEntries) (sortedCandidates walk s protectedGeneration).length)
      simp only [trimBatch, if_true]
      omega
    | false => exact length_removeOldestLoop walk protectedGeneration s.entryCount hcount

/-! ### Accounting a snapshot -/

@[simp] theorem accountedEntry_key (lib : Arithmetic) (generation : Nat) (elapsed : ℚ) (nowEpoch : Int)
    (samples : Samples) (process : LsmProcessInfo) (entry : LsmHistoryEntry) :
    (accountedEntry lib generation elapsed nowEpoch samples process entry).key = entry.key := by
  simp only [accountedEntry, creditEntry, addRss, beginLive]
  split <;> rfl

@[simp] theorem accountedEntry_liveGeneration (lib : Arithmetic) (generation : Nat) (elapsed : ℚ) (nowEpoch : Int)
    (samples : Samples) (process : LsmProcessInfo) (entry : LsmHistoryEntry) :
    (accountedEntry lib generation elapsed nowEpoch samples process entry).liveGeneration = generation := by
  simp only [accountedEntry, creditEntry, addRss, beginLive]
  split
  · rfl
  · rename_i h
    exact not_not.mp h

/-- The entry a process is accounted to, found or new. -/
theorem historyEntryGet_spec (s : LsmHistoryState) (reading : Reading) :
    (historyEntryGet s reading).2.key = historyKey reading.process ∧
    (historyEntryGet s reading).2 ∈ (historyEntryGet s reading).1.appHistory.rows ∧
    (∀ x, x.key ≠ historyKey reading.process →
      (x ∈ (historyEntryGet s reading).1.appHistory.rows ↔ x ∈ s.appHistory.rows)) ∧
    (s.entryCount = s.appHistory.rows.length →
      (historyEntryGet s reading).1.entryCount = (historyEntryGet s reading).1.appHistory.rows.length) := by
  unfold historyEntryGet
  cases hfind : s.appHistory.find? (historyKey reading.process) with
  | some entry =>
    obtain ⟨hmem, hkey⟩ := Table.find?_eq_some.mp hfind
    exact ⟨hkey, hmem, fun _ _ => Iff.rfl, id⟩
  | none =>
    refine ⟨rfl, Table.mem_put.mpr (Or.inl rfl), ?_, ?_⟩
    · intro x hx
      rw [Table.mem_put]
      constructor
      · intro hcase
        rcases hcase with rfl | ⟨hmem, -⟩
        · exact absurd rfl hx
        · exact hmem
      · intro hmem
        exact Or.inr ⟨hmem, hx⟩
    · intro hcount
      simp only [Table.length_put, hfind, Option.isSome_none, Bool.false_eq_true, if_false, hcount]

/-- Accounting a process replaces the entry of its identity and keeps the count. -/
theorem ingestProcess_spec (lib : Arithmetic) (generation : Nat) (elapsed : ℚ) (nowEpoch : Int)
    (s : LsmHistoryState) (reading : Reading) :
    ∃ entry : LsmHistoryEntry, entry.key = historyKey reading.process ∧ entry.liveGeneration = generation ∧
      (∀ x, x ∈ (ingestProcess lib generation elapsed nowEpoch s reading).appHistory.rows ↔
        x = entry ∨ x ∈ s.appHistory.rows ∧ x.key ≠ historyKey reading.process) ∧
      (s.entryCount = s.appHistory.rows.length →
        (ingestProcess lib generation elapsed nowEpoch s reading).entryCount =
          (ingestProcess lib generation elapsed nowEpoch s reading).appHistory.rows.length) := by
  obtain ⟨hkey, hmem, hothers, hcounted⟩ := historyEntryGet_spec s reading
  refine ⟨accountedEntry lib generation elapsed nowEpoch s.appHistorySamples reading.process
    (historyEntryGet s reading).2, by rw [accountedEntry_key, hkey], accountedEntry_liveGeneration .., ?_, ?_⟩
  · intro x
    simp only [ingestProcess, Table.mem_put, accountedEntry_key, hkey]
    constructor
    · intro hcase
      rcases hcase with rfl | ⟨hx, hne⟩
      · exact Or.inl rfl
      · exact Or.inr ⟨(hothers x hne).mp hx, hne⟩
    · intro hcase
      rcases hcase with rfl | ⟨hx, hne⟩
      · exact Or.inl rfl
      · exact Or.inr ⟨(hothers x hne).mpr hx, hne⟩
  · intro hcount
    have hfound : ((historyEntryGet s reading).1.appHistory.find? (historyEntryGet s reading).2.key).isSome = true := by
      rw [Table.find?_eq_some.mpr ⟨hmem, rfl⟩]
      rfl
    simp only [ingestProcess, Table.length_put, accountedEntry_key, hfound, if_true]
    exact hcounted hcount

/-- Accounting a snapshot keeps the count right. -/
theorem ingestAccount_counted (lib : Arithmetic) {s : LsmHistoryState}
    (hcount : s.entryCount = s.appHistory.rows.length) (snapshot : Snapshot) :
    (ingestAccount lib s snapshot).entryCount = (ingestAccount lib s snapshot).appHistory.rows.length := by
  have hfold : ∀ (readings : List Reading) (t : LsmHistoryState), t.entryCount = t.appHistory.rows.length →
      let u := readings.foldl (ingestProcess lib (nextGeneration s.generation) (ingestElapsed s snapshot.nowMono)
        snapshot.nowEpoch) t
      u.entryCount = u.appHistory.rows.length := by
    intro readings
    induction readings with
    | nil => exact fun t h => h
    | cons reading rest ih =>
      intro t h
      obtain ⟨-, -, -, -, hcounted⟩ := ingestProcess_spec lib (nextGeneration s.generation)
        (ingestElapsed s snapshot.nowMono) snapshot.nowEpoch t reading
      exact ih _ (hcounted h)
  exact hfold snapshot.processes _ hcount

/-- The table after part of a snapshot: the identities seen carry its generation, the others do not. -/
structure Live (generation : Nat) (seen : List Text) (s : LsmHistoryState) : Prop where
  counted : s.entryCount = s.appHistory.rows.length
  stamped : ∀ e ∈ s.appHistory.rows, e.liveGeneration = generation ↔ e.key ∈ seen
  older : ∀ e ∈ s.appHistory.rows, e.liveGeneration ≤ generation
  present : ∀ k ∈ seen, ∃ e ∈ s.appHistory.rows, e.key = k

theorem Live.process (lib : Arithmetic) {generation : Nat} (elapsed : ℚ) (nowEpoch : Int) {seen : List Text}
    {s : LsmHistoryState} (h : Live generation seen s) (reading : Reading) :
    Live generation (seen ++ [historyKey reading.process])
      (ingestProcess lib generation elapsed nowEpoch s reading) := by
  obtain ⟨entry, hkey, hlive, hrows, hcount⟩ := ingestProcess_spec lib generation elapsed nowEpoch s reading
  refine ⟨hcount h.counted, ?_, ?_, ?_⟩
  · intro e he
    rw [List.mem_append, List.mem_singleton]
    rcases (hrows e).mp he with rfl | ⟨hmem, hne⟩
    · exact ⟨fun _ => Or.inr hkey, fun _ => hlive⟩
    · rw [h.stamped e hmem]
      exact ⟨Or.inl, fun hor => hor.resolve_right hne⟩
  · intro e he
    rcases (hrows e).mp he with rfl | ⟨hmem, -⟩
    · exact Nat.le_of_eq hlive
    · exact h.older e hmem
  · intro k hk
    by_cases hsame : k = historyKey reading.process
    · exact ⟨entry, (hrows entry).mpr (Or.inl rfl), hkey.trans hsame.symm⟩
    · rcases List.mem_append.mp hk with hk | hk
      · obtain ⟨e, he, rfl⟩ := h.present k hk
        exact ⟨e, (hrows e).mpr (Or.inr ⟨he, hsame⟩), rfl⟩
      · exact absurd (List.mem_singleton.mp hk) hsame

theorem Live.foldl (lib : Arithmetic) {generation : Nat} (elapsed : ℚ) (nowEpoch : Int) (readings : List Reading)
    {seen : List Text} {s : LsmHistoryState} (h : Live generation seen s) :
    Live generation (seen ++ readings.map fun r => historyKey r.process)
      (readings.foldl (ingestProcess lib generation elapsed nowEpoch) s) := by
  induction readings generalizing seen s with
  | nil => simpa using h
  | cons reading rest ih =>
    have := ih (h.process lib elapsed nowEpoch reading)
    simpa [List.append_assoc] using this

/-! ### Merging the loaded entries -/

/-- The entry a loaded one becomes. -/
def mergedWith (lib : Arithmetic) (s : LsmHistoryState) (loaded : LsmHistoryEntry) : LsmHistoryEntry :=
  match s.appHistory.find? loaded.key with
  | none => loaded
  | some current => mergeEntry lib current loaded

theorem mergedWith_key (lib : Arithmetic) (s : LsmHistoryState) (loaded : LsmHistoryEntry) :
    (mergedWith lib s loaded).key = loaded.key := by
  unfold mergedWith
  cases hfind : s.appHistory.find? loaded.key with
  | none => rfl
  | some current => exact (Table.find?_eq_some.mp hfind).2

theorem mergeLoadedEntry_appHistory (lib : Arithmetic) (s : LsmHistoryState) (loaded : LsmHistoryEntry) :
    (mergeLoadedEntry lib s loaded).appHistory = s.appHistory.put (mergedWith lib s loaded) := by
  unfold mergeLoadedEntry mergedWith
  cases s.appHistory.find? loaded.key <;> rfl

theorem mergeLoadedEntry_frame (lib : Arithmetic) (s : LsmHistoryState) (loaded : LsmHistoryEntry) :
    mergeLoadedEntry lib s loaded =
      {s with
        appHistory := (mergeLoadedEntry lib s loaded).appHistory
        entryCount := (mergeLoadedEntry lib s loaded).entryCount} := by
  unfold mergeLoadedEntry
  cases s.appHistory.find? loaded.key <;> rfl

/-- A table whose stamped entries are those of the latest snapshot. -/
structure Marked (latest : List Text) (s : LsmHistoryState) : Prop where
  counted : s.entryCount = s.appHistory.rows.length
  older : ∀ e ∈ s.appHistory.rows, e.liveGeneration ≤ s.generation
  marked : ∀ e ∈ s.appHistory.rows, shielded s.generation e = true → e.key ∈ latest

/-- Every identity of the latest snapshot has its entry, stamped. -/
def Covered (latest : List Text) (s : LsmHistoryState) : Prop :=
  ∀ k ∈ latest, ∃ e ∈ s.appHistory.rows, e.key = k ∧ shielded s.generation e = true

theorem Covered.shielded {latest : List Text} {s : LsmHistoryState} (h : Covered latest s) {e : LsmHistoryEntry}
    (he : e ∈ s.appHistory.rows) (hk : e.key ∈ latest) : History.shielded s.generation e = true := by
  obtain ⟨e', he', hkey, hshield⟩ := h e.key hk
  rwa [s.appHistory.eq_of_key he he' hkey.symm]

theorem shielded_zero {generation : Nat} {e : LsmHistoryEntry} (h : e.liveGeneration = 0) :
    shielded generation e = false := by
  simp only [shielded, h, Bool.and_eq_false_iff, bne_eq_false_iff_eq, beq_eq_false_iff_ne]
  by_cases hg : generation = 0
  · exact Or.inl hg
  · exact Or.inr (Ne.symm hg)

section
variable {lib : Arithmetic} {latest : List Text} {s : LsmHistoryState} {loaded : LsmHistoryEntry}

/-- The merged entry is stamped exactly when the current one was. -/
theorem mergedWith_liveGeneration (hloaded : loaded.liveGeneration = 0) :
    (mergedWith lib s loaded).liveGeneration = 0 ∨
    ∃ current ∈ s.appHistory.rows, current.key = loaded.key ∧
      (mergedWith lib s loaded).liveGeneration = current.liveGeneration := by
  unfold mergedWith
  cases hfind : s.appHistory.find? loaded.key with
  | none => exact Or.inl hloaded
  | some current =>
    obtain ⟨hmem, hkey⟩ := Table.find?_eq_some.mp hfind
    exact Or.inr ⟨current, hmem, hkey, rfl⟩

theorem mergeLoadedEntry_generation : (mergeLoadedEntry lib s loaded).generation = s.generation := by
  rw [mergeLoadedEntry_frame]

theorem mergeLoadedEntry_counted (hcount : s.entryCount = s.appHistory.rows.length) :
    (mergeLoadedEntry lib s loaded).entryCount = (mergeLoadedEntry lib s loaded).appHistory.rows.length := by
  unfold mergeLoadedEntry
  cases hfind : s.appHistory.find? loaded.key with
  | none => simp only [Table.length_put, hfind, Option.isSome_none, Bool.false_eq_true, if_false, hcount]
  | some current =>
    have hkey : (mergeEntry lib current loaded).key = loaded.key := (Table.find?_eq_some.mp hfind).2
    simp only [Table.length_put, hkey, hfind, Option.isSome_some, if_true, hcount]

theorem Marked.mergeOne (h : Marked latest s) (hloaded : loaded.liveGeneration = 0) :
    Marked latest (mergeLoadedEntry lib s loaded) := by
  refine ⟨mergeLoadedEntry_counted h.counted, ?_, ?_⟩
  all_goals
    intro e he
    rw [mergeLoadedEntry_generation]
    rw [mergeLoadedEntry_appHistory, Table.mem_put] at he
    rcases he with rfl | ⟨he, -⟩
  · rcases mergedWith_liveGeneration hloaded with hzero | ⟨current, hmem, -, heq⟩
    · rw [hzero]
      exact Nat.zero_le _
    · rw [heq]
      exact h.older current hmem
  · exact h.older e he
  · intro hshield
    rcases mergedWith_liveGeneration hloaded with hzero | ⟨current, hmem, hkey, heq⟩
    · rw [shielded_zero hzero] at hshield
      cases hshield
    · rw [mergedWith_key, ← hkey]
      apply h.marked current hmem
      simpa [shielded, heq] using hshield
  · exact h.marked e he

theorem Covered.mergeOne (h : Covered latest s) : Covered latest (mergeLoadedEntry lib s loaded) := by
  intro k hk
  obtain ⟨e, he, hkey, hshield⟩ := h k hk
  rw [mergeLoadedEntry_generation, mergeLoadedEntry_appHistory]
  by_cases hsame : e.key = loaded.key
  · refine ⟨mergedWith lib s loaded, Table.mem_put.mpr (Or.inl rfl), ?_, ?_⟩
    · rw [mergedWith_key, ← hsame, hkey]
    · have hfind : s.appHistory.find? loaded.key = some e := Table.find?_eq_some.mpr ⟨he, hsame⟩
      simp only [mergedWith, hfind]
      exact hshield
  · exact ⟨e, Table.mem_put.mpr (Or.inr ⟨he, by rwa [mergedWith_key]⟩), hkey, hshield⟩

variable (lib s loaded) in
theorem length_mergeOne :
    (mergeLoadedEntry lib s loaded).appHistory.rows.length ≤ s.appHistory.rows.length + 1 := by
  rw [mergeLoadedEntry_appHistory, Table.length_put]
  split <;> omega

variable (lib) in
/-- The whole merge, before trimming. -/
theorem foldl_mergeLoadedEntry (entries : List LsmHistoryEntry) (hentries : ∀ e ∈ entries, e.liveGeneration = 0)
    (h : Marked latest s) :
    let t := entries.foldl (mergeLoadedEntry lib) s
    Marked latest t ∧ (Covered latest s → Covered latest t) ∧
      t.appHistory.rows.length ≤ s.appHistory.rows.length + entries.length ∧
      t = {s with appHistory := t.appHistory, entryCount := t.entryCount} := by
  induction entries generalizing s with
  | nil => exact ⟨h, id, Nat.le_refl _, rfl⟩
  | cons e rest ih =>
    obtain ⟨hmarked, hcovered, hlength, hframe⟩ := ih (fun x hx => hentries x (List.mem_cons_of_mem _ hx))
      (h.mergeOne (hentries e (List.mem_cons_self ..)))
    refine ⟨hmarked, fun hc => hcovered hc.mergeOne, ?_, ?_⟩
    · have hone := length_mergeOne lib s e
      simp only [List.foldl_cons, List.length_cons] at hlength ⊢
      omega
    · rw [List.foldl_cons, hframe, mergeLoadedEntry_frame]

end

theorem mergeAccount_frame (lib : Arithmetic) (s : LsmHistoryState) (result : LsmHistoryLoadResult) (run : MergeRun) :
    let t := mergeAccount lib s result run
    t = {s with appHistory := t.appHistory, entryCount := t.entryCount} := by
  unfold mergeAccount
  generalize run.loadedWalk.order result.entries.rows = entries
  induction entries generalizing s with
  | nil => rfl
  | cons e rest ih =>
    intro t
    have hrest := ih (mergeLoadedEntry lib s e)
    simp only [t, List.foldl_cons]
    rw [hrest, mergeLoadedEntry_frame]

/-- All that a merge changes; the mark tells whether the file must be rewritten. -/
theorem historyMergeLoaded_frame (lib : Arithmetic) (s : LsmHistoryState) (result : LsmHistoryLoadResult)
    (run : MergeRun) :
    let t := historyMergeLoaded lib s result run
    let marked := result.truncated || (historyTrimToLimit run.walk run.allocated (mergeAccount lib s result run)
      (mergeAccount lib s result run).generation).2
    t = {s with
      appHistory := t.appHistory
      entryCount := t.entryCount
      mutationGeneration := if marked then (historyMarkDirty s).mutationGeneration else s.mutationGeneration
      dirty := if marked then true else s.dirty} := by
  have htrim := historyTrimToLimit_frame run.walk run.allocated (mergeAccount lib s result run)
    (mergeAccount lib s result run).generation
  intro t marked
  simp only [t, historyMergeLoaded]
  by_cases hmarked : marked = true
  · rw [if_pos hmarked, if_pos hmarked, if_pos hmarked]
    simp only [historyMarkDirty]
    rw [htrim, mergeAccount_frame]
  · rw [if_neg hmarked, if_neg hmarked, if_neg hmarked, htrim, mergeAccount_frame]

/-! ### Runs -/

/-- What happens to the retained history. -/
inductive HistoryOp where
  | ingest (snapshot : Snapshot)
  | merge (result : LsmHistoryLoadResult) (run : MergeRun)
  | reset

/-- The load is started once, so it is merged at most once. -/
def retained (lib : Arithmetic) : Machine LsmHistoryState HistoryOp where
  step s
    | .ingest snapshot => some (lsmAppHistoryIngest lib s snapshot)
    | .merge result run =>
      if s.loadPending then some (historyMergeLoaded lib {s with loadPending := false} result run) else none
    | .reset => some (historyClear s)

/-- The table an operation trims. -/
def untrimmed (lib : Arithmetic) (s : LsmHistoryState) : HistoryOp → LsmHistoryState
  | .ingest snapshot => ingestAccount lib s snapshot
  | .merge result run => mergeAccount lib {s with loadPending := false} result run
  | .reset => historyClear s

/-- The identities of the most recent snapshot. -/
def latestKeys (ops : List HistoryOp) : List Text :=
  ops.foldl (fun latest op => match op with
    | .ingest snapshot => snapshot.keys
    | _ => latest) []

def ingestCount (ops : List HistoryOp) : Nat :=
  ops.countP fun op => match op with
    | .ingest _ => true
    | _ => false

/-- What holds between operations. Until the merge, the entries of the latest
snapshot are all there and stamped, unless a reset has removed everything. -/
structure Retained (latest : List Text) (count : Nat) (s : LsmHistoryState) : Prop where
  marked : Marked latest s
  generation : s.generation = count
  covered : s.loadPending = true → s.appHistory.rows = [] ∨ Covered latest s

/-- What the retention rule allows an operation to remove. -/
structure Retains (latest : List Text) (before after : LsmHistoryState) : Prop where
  kept : after.appHistory.rows.Sublist before.appHistory.rows
  bounded : after.appHistory.rows.length ≤ lsmHistoryMaxEntries ∨ ∀ e ∈ after.appHistory.rows, e.key ∈ latest
  evicted : ∀ e ∈ before.appHistory.rows, e ∉ after.appHistory.rows →
    e.key ∉ latest ∧ ∀ y ∈ after.appHistory.rows, y.key ∉ latest → NotNewer e y

theorem Retains.refl {s : LsmHistoryState} (latest : List Text)
    (h : s.appHistory.rows.length ≤ lsmHistoryMaxEntries) : Retains latest s s :=
  ⟨List.Sublist.refl _, Or.inl h, fun _ he hnot => absurd he hnot⟩

section
variable (lib : Arithmetic) {latest : List Text} {count : Nat} {s : LsmHistoryState}

/-- Where the stamp tells the identities of the latest snapshot, trimming obeys the rule. -/
theorem Trimmed.retains {protectedGeneration : Nat} {t : LsmHistoryState × Bool}
    (h : Trimmed protectedGeneration s t)
    (hstamp : ∀ e ∈ s.appHistory.rows, shielded protectedGeneration e = true ↔ e.key ∈ latest) :
    Retains latest s t.1 := by
  have hopen : ∀ e ∈ s.appHistory.rows, shielded protectedGeneration e = false ↔ e.key ∉ latest := by
    intro e he
    rw [← hstamp e he, Bool.not_eq_true]
  refine ⟨h.evicted.sublist, ?_, ?_⟩
  · rcases h.fits with hfits | hall
    · exact Or.inl hfits
    · right
      intro e he
      exact (hstamp e (h.evicted.sublist.subset he)).mp (hall e he)
  · intro e he hgone
    refine ⟨(hopen e he).mp (h.evicted.unshielded e he hgone), ?_⟩
    intro y hy hykey
    exact h.evicted.oldest e he hgone y hy ((hopen y (h.evicted.sublist.subset hy)).mpr hykey)

/-- Trimming keeps what is stamped. -/
theorem Trimmed.covered {t : LsmHistoryState × Bool} (h : Trimmed s.generation s t) (hcovered : Covered latest s) :
    Covered latest t.1 := by
  intro k hk
  obtain ⟨e, he, hkey, hshield⟩ := hcovered k hk
  have hgeneration : t.1.generation = s.generation := by rw [h.frame]
  rw [hgeneration]
  refine ⟨e, ?_, hkey, hshield⟩
  by_contra hgone
  rw [h.evicted.unshielded e he hgone] at hshield
  cases hshield

theorem Trimmed.marked {t : LsmHistoryState × Bool} (h : Trimmed s.generation s t) (hmarked : Marked latest s) :
    Marked latest t.1 := by
  have hgeneration : t.1.generation = s.generation := by rw [h.frame]
  refine ⟨h.counted, ?_, ?_⟩
  · intro e he
    rw [hgeneration]
    exact hmarked.older e (h.evicted.sublist.subset he)
  · intro e he
    rw [hgeneration]
    exact hmarked.marked e (h.evicted.sublist.subset he)

/-- The accounted snapshot, before trimming: exactly its identities are stamped. -/
theorem ingestAccount_live (h : Retained latest count s) (hcount : count + 1 < 2 ^ 32) (snapshot : Snapshot) :
    (ingestAccount lib s snapshot).generation = count + 1 ∧
    Live (count + 1) snapshot.keys (ingestAccount lib s snapshot) := by
  have hnext : nextGeneration s.generation = count + 1 := by
    rw [nextGeneration, h.generation, Nat.mod_eq_of_lt hcount]
  have hstart : Live (count + 1) [] {s with generation := count + 1, lastSample := snapshot.nowMono} := by
    -- No entry can carry a generation that has not been yet.
    have holder : ∀ e ∈ s.appHistory.rows, e.liveGeneration ≤ count := fun e he =>
      h.generation ▸ h.marked.older e he
    refine ⟨h.marked.counted, ?_, ?_, fun k hk => absurd hk List.not_mem_nil⟩
    · intro e he
      have := holder e he
      refine ⟨fun heq => ?_, fun hk => absurd hk List.not_mem_nil⟩
      omega
    · intro e he
      exact Nat.le_succ_of_le (holder e he)
  have hlive := hstart.foldl lib (ingestElapsed s snapshot.nowMono) snapshot.nowEpoch snapshot.processes
  rw [List.nil_append] at hlive
  have hframe := ingestAccount_frame lib s snapshot
  refine ⟨?_, ?_⟩
  · rw [hframe]
    exact hnext
  · simp only [ingestAccount, hnext]
    exact ⟨hlive.counted, hlive.stamped, hlive.older, hlive.present⟩

theorem Live.shielded_iff {generation : Nat} {seen : List Text} (h : Live generation seen s) (hpos : generation ≠ 0)
    {e : LsmHistoryEntry} (he : e ∈ s.appHistory.rows) : shielded generation e = true ↔ e.key ∈ seen := by
  rw [← h.stamped e he]
  simp [shielded, hpos]

theorem Live.marked {seen : List Text} (h : Live s.generation seen s) (hpos : s.generation ≠ 0) : Marked seen s :=
  ⟨h.counted, h.older, fun _ he => (h.shielded_iff hpos he).mp⟩

theorem Live.covered {seen : List Text} (h : Live s.generation seen s) (hpos : s.generation ≠ 0) : Covered seen s := by
  intro k hk
  obtain ⟨e, he, rfl⟩ := h.present k hk
  exact ⟨e, he, rfl, (h.shielded_iff hpos he).mpr hk⟩

/-- Nothing of it is about the flags, but for the pending load. -/
theorem Retained.setFlags (h : Retained latest count s) (mutationGeneration : Nat)
    (dirty loadPending savePending saveAgain : Bool) (hload : loadPending = true → s.loadPending = true) :
    Retained latest count {s with mutationGeneration, dirty, loadPending, savePending, saveAgain} :=
  ⟨⟨h.marked.counted, h.marked.older, h.marked.marked⟩, h.generation, fun hpending => h.covered (hload hpending)⟩

theorem Retained.markDirty (h : Retained latest count s) : Retained latest count (historyMarkDirty s) :=
  h.setFlags _ _ _ _ _ id

theorem Retains.markDirty {before after : LsmHistoryState} (h : Retains latest before after) :
    Retains latest before (historyMarkDirty after) :=
  ⟨h.kept, h.bounded, h.evicted⟩

theorem Retained.ingest (h : Retained latest count s) (hcount : count + 1 < 2 ^ 32) (snapshot : Snapshot) :
    Retained snapshot.keys (count + 1) (lsmAppHistoryIngest lib s snapshot) ∧
    Retains snapshot.keys (ingestAccount lib s snapshot) (lsmAppHistoryIngest lib s snapshot) := by
  obtain ⟨hgeneration, hlive⟩ := ingestAccount_live lib h hcount snapshot
  have htrim := historyTrimToLimit_trimmed snapshot.walk snapshot.allocated hlive.counted (count + 1)
  rw [← hgeneration] at hlive htrim
  have hpos : (ingestAccount lib s snapshot).generation ≠ 0 := by omega
  have hretained : Retained snapshot.keys (count + 1)
      (historyTrimToLimit snapshot.walk snapshot.allocated (ingestAccount lib s snapshot)
        (ingestAccount lib s snapshot).generation).1 := by
    refine ⟨htrim.marked (hlive.marked hpos), ?_, fun _ => Or.inr (htrim.covered (hlive.covered hpos))⟩
    rw [htrim.frame]
    exact hgeneration
  have hretains := htrim.retains fun e he => hlive.shielded_iff hpos he
  simp only [lsmAppHistoryIngest]
  split
  · exact ⟨hretained.markDirty, hretains.markDirty⟩
  · exact ⟨hretained, hretains⟩

theorem Retained.merge (h : Retained latest count s) (hpending : s.loadPending = true)
    (result : LsmHistoryLoadResult) (run : MergeRun) :
    Retained latest count (historyMergeLoaded lib {s with loadPending := false} result run) ∧
    Retains latest (mergeAccount lib {s with loadPending := false} result run)
      (historyMergeLoaded lib {s with loadPending := false} result run) := by
  have hentries : ∀ e ∈ run.loadedWalk.order result.entries.rows, e.liveGeneration = 0 := fun e he =>
    result.unstamped e ((run.loadedWalk.mem _ e).mp he)
  have hstart : Marked latest {s with loadPending := false} := ⟨h.marked.counted, h.marked.older, h.marked.marked⟩
  obtain ⟨hmarked, hcovered, hlength, hframe⟩ := foldl_mergeLoadedEntry lib _ hentries hstart
  rw [(run.loadedWalk.perm _).length_eq] at hlength
  generalize hmerged : mergeAccount lib {s with loadPending := false} result run = merged
  rw [← mergeAccount, hmerged] at hmarked hcovered hlength hframe
  have hgeneration : merged.generation = s.generation := by rw [hframe]
  have hdone : merged.loadPending = false := by rw [hframe]
  have htrim := historyTrimToLimit_trimmed run.walk run.allocated hmarked.counted merged.generation
  have hretained : Retained latest count
      (historyTrimToLimit run.walk run.allocated merged merged.generation).1 := by
    refine ⟨htrim.marked hmarked, ?_, fun hp => ?_⟩
    · rw [htrim.frame]
      exact hgeneration.trans h.generation
    · rw [htrim.frame, hdone] at hp
      cases hp
  have hretains : Retains latest merged
      (historyTrimToLimit run.walk run.allocated merged merged.generation).1 := by
    rcases h.covered hpending with hempty | hall
    · -- Nothing was there, and what was loaded fits.
      have hfits : merged.appHistory.rows.length ≤ lsmHistoryMaxEntries := by
        have := result.bounded
        simp only [hempty, List.length_nil] at hlength
        omega
      rw [historyTrimToLimit, if_pos (hmarked.counted ▸ hfits)]
      exact Retains.refl latest hfits
    · have hshield := hcovered hall
      exact htrim.retains fun e he => ⟨hmarked.marked e he, hshield.shielded he⟩
  simp only [historyMergeLoaded, hmerged]
  split
  · exact ⟨hretained.markDirty, hretains.markDirty⟩
  · exact ⟨hretained, hretains⟩

theorem Retained.reset (h : Retained latest count s) :
    Retained latest count (historyClear s) ∧ Retains latest (historyClear s) (historyClear s) := by
  have hnone : ∀ e : LsmHistoryEntry, e ∉ (historyClear s).appHistory.rows := fun _ => List.not_mem_nil
  refine ⟨⟨⟨rfl, ?_, ?_⟩, h.generation, fun _ => Or.inl rfl⟩, Retains.refl latest (Nat.zero_le _)⟩
  · intro e he
    exact absurd he (hnone e)
  · intro e he
    exact absurd he (hnone e)

/-- One operation, whatever the history was. -/
theorem Retained.step {op : HistoryOp} {t : LsmHistoryState} {ops : List HistoryOp}
    (h : Retained (latestKeys ops) (ingestCount ops) s) (hstep : (retained lib).step s op = some t)
    (hcount : ingestCount (ops ++ [op]) < 2 ^ 32) :
    Retained (latestKeys (ops ++ [op])) (ingestCount (ops ++ [op])) t ∧
    Retains (latestKeys (ops ++ [op])) (untrimmed lib s op) t := by
  unfold latestKeys at h ⊢
  rw [List.foldl_concat]
  rw [ingestCount, List.countP_append, ← ingestCount] at hcount ⊢
  cases op with
  | ingest snapshot =>
    cases hstep
    exact h.ingest lib hcount snapshot
  | merge result run =>
    simp only [retained] at hstep
    split at hstep
    · cases hstep
      exact h.merge lib (by assumption) result run
    · cases hstep
  | reset =>
    cases hstep
    exact h.reset

theorem retained_run (pending : Bool) (ops : List HistoryOp) {u : LsmHistoryState}
    (hrun : (retained lib).run {loadPending := pending} ops = some u) (hcount : ingestCount ops < 2 ^ 32) :
    Retained (latestKeys ops) (ingestCount ops) u := by
  induction ops using List.reverseRecOn generalizing u with
  | nil =>
    cases hrun
    exact ⟨⟨rfl, fun e he => absurd he List.not_mem_nil, fun e he => absurd he List.not_mem_nil⟩, rfl,
      fun _ => Or.inl rfl⟩
  | append_singleton ops op ih =>
    rw [Machine.run_append] at hrun
    obtain ⟨s, hs, hlast⟩ := Option.bind_eq_some_iff.mp hrun
    obtain ⟨t, hstep, hnil⟩ := Machine.run_cons _ hlast
    cases hnil
    have hbefore : ingestCount ops < 2 ^ 32 := by
      rw [ingestCount, List.countP_append, ← ingestCount] at hcount
      omega
    exact ((ih hs hbefore).step lib hstep hcount).1

end

/-- **The retention bound.** After any run and one more operation: the count is
the size of the table; after a snapshot and after the merge the table is within
the limit or holds nothing but identities of the latest snapshot; what was
evicted is not one of these, and is at most as recent as every other entry that
stayed. -/
theorem retention (lib : Arithmetic) (pending : Bool) (ops : List HistoryOp) (op : HistoryOp)
    {s t : LsmHistoryState} (hrun : (retained lib).run {loadPending := pending} ops = some s)
    (hstep : (retained lib).step s op = some t) (hcount : ingestCount (ops ++ [op]) < 2 ^ 32) :
    s.entryCount = s.appHistory.rows.length ∧ t.entryCount = t.appHistory.rows.length ∧
    t.appHistory.rows.Sublist (untrimmed lib s op).appHistory.rows ∧
    (t.appHistory.rows.length ≤ lsmHistoryMaxEntries ∨
      ∀ e ∈ t.appHistory.rows, e.key ∈ latestKeys (ops ++ [op])) ∧
    ∀ e ∈ (untrimmed lib s op).appHistory.rows, e ∉ t.appHistory.rows →
      e.key ∉ latestKeys (ops ++ [op]) ∧
      ∀ y ∈ t.appHistory.rows, y.key ∉ latestKeys (ops ++ [op]) → NotNewer e y := by
  have hbefore : ingestCount ops < 2 ^ 32 := by
    rw [ingestCount, List.countP_append, ← ingestCount] at hcount
    omega
  have hs := retained_run lib pending ops hrun hbefore
  obtain ⟨ht, hretains⟩ := hs.step lib hstep hcount
  exact ⟨hs.marked.counted, ht.marked.counted, hretains.kept, hretains.bounded, hretains.evicted⟩

/-- A snapshot of one application taken while the load of a file with another is pending. -/
def oneApplication : Snapshot where
  processes := [⟨{pid := 7, instanceId := 100, account := some 1000, name := ⟨ascii "shell", by decide, by decide⟩}, 50⟩]
  nowMono := 1
  nowEpoch := 50
  walk := .stored
  allocated := true

def otherApplication : LsmHistoryLoadResult where
  entries := Table.empty.put
    {key := ascii "uid:0|init", name := ascii "init", user := [], identity := ascii "init", firstSeen := 1, lastSeen := 2}
  truncated := false
  bounded := by decide
  unstamped := by decide

theorem retention_merged :
    ∃ s t, (retained .documented).run {loadPending := true} [.ingest oneApplication] = some s ∧
      (retained .documented).step s (.merge otherApplication ⟨.stored, .stored, true⟩) = some t ∧
      t.entryCount = 2 ∧ t.entryCount = t.appHistory.rows.length := by
  have hstep : (retained .documented).step (lsmAppHistoryIngest .documented {loadPending := true} oneApplication)
      (.merge otherApplication ⟨.stored, .stored, true⟩) = some (historyMergeLoaded .documented
        {lsmAppHistoryIngest .documented {loadPending := true} oneApplication with loadPending := false}
        otherApplication ⟨.stored, .stored, true⟩) := rfl
  refine ⟨_, _, rfl, hstep, by decide, ?_⟩
  exact (retention .documented true [.ingest oneApplication] _ rfl hstep (by decide)).2.1

end SystemMonitor.History
