import SystemMonitor.History.Record
import SystemMonitor.History.Retention

/-! What a load can produce, whatever the file holds.

The loader's table has the count beside it right and never exceeds the limit;
its entries carry no generation, and hold what the C types promise and seconds
within the loader's range. The result does not depend on the order in which the
table happens to be walked. -/
namespace SystemMonitor.History
open Lib Process

/-- What the C types and the identity's form promise of an entry. -/
structure Typed (e : LsmHistoryEntry) : Prop where
  nulFree : 0 ∉ e.key ∧ 0 ∉ e.name ∧ 0 ∉ e.user ∧ 0 ∉ e.identity
  notComment : e.key.head? ≠ some 35
  counters : e.readBytes ≤ uint64Max ∧ e.writeBytes ≤ uint64Max ∧ e.peakRssBytes ≤ uint64Max
  firstSeen : int64Min ≤ e.firstSeen ∧ e.firstSeen ≤ int64Max
  lastSeen : int64Min ≤ e.lastSeen ∧ e.lastSeen ≤ int64Max
  seconds : 0 ≤ e.cpuSeconds ∧ 0 ≤ e.activeSeconds

/-- An entry as a load makes it. -/
structure FromFile (e : LsmHistoryEntry) : Prop where
  typed : Typed e
  cpuSeconds : e.cpuSeconds ≤ secondsLimit
  activeSeconds : e.activeSeconds ≤ secondsLimit
  liveGeneration : e.liveGeneration = 0
  currentRssBytes : e.currentRssBytes = 0

/-- The loader's state. -/
structure Loaded (s : LsmHistoryState) : Prop where
  counted : s.entryCount = s.appHistory.rows.length
  bounded : s.appHistory.rows.length ≤ lsmHistoryMaxEntries
  entries : ∀ e ∈ s.appHistory.rows, FromFile e

theorem loadedEntry_fromFile {numerals : Numerals} {line : Text} (hnul : 0 ∉ line) (hhead : line.head? ≠ some 35)
    {e : LsmHistoryEntry} (h : loadedEntry numerals (Lines.strsplit 9 11 line) = some e) : FromFile e := by
  have hfield : ∀ f ∈ Lines.strsplit 9 11 line, 0 ∉ f := fun f hf hb => hnul (Lines.mem_strsplit hf hb)
  have hfirst : ∀ first rest, Lines.strsplit 9 11 line = first :: rest → first.head? ≠ some 35 := by
    intro first rest hsplit
    rcases Lines.strsplit_head hsplit with rfl | hsame
    · simp
    · rwa [hsame]
  generalize Lines.strsplit 9 11 line = fields at h hfield hfirst
  unfold loadedEntry at h
  split at h
  · rename_i key name user identity cpuField activeField readField writeField peakField firstField lastField
    simp only [Option.bind_eq_bind, Option.bind_eq_some_iff, Option.some.injEq] at h
    obtain ⟨cpu, hcpu, active, hactive, reads, hreads, writes, hwrites, peak, hpeak, first, hfirstSeen, last,
      hlastSeen, rfl⟩ := h
    have hcpuRange := numerals.parseSeconds_range _ _ hcpu
    have hactiveRange := numerals.parseSeconds_range _ _ hactive
    refine ⟨⟨⟨?_, ?_, ?_, ?_⟩, hfirst _ _ rfl, ⟨?_, ?_, ?_⟩, ?_, ?_, ⟨hcpuRange.1, hactiveRange.1⟩⟩,
      hcpuRange.2, hactiveRange.2, rfl, rfl⟩
    · exact hfield key (by simp)
    · exact hfield name (by simp)
    · exact hfield user (by simp)
    · exact hfield identity (by simp)
    · exact numerals.parseU64_range _ _ hreads
    · exact numerals.parseU64_range _ _ hwrites
    · exact numerals.parseU64_range _ _ hpeak
    · exact numerals.parseI64_range _ _ hfirstSeen
    · exact numerals.parseI64_range _ _ hlastSeen
  · cases h

section
variable {s : LsmHistoryState} {e : LsmHistoryEntry}

/-- A row of a key that is there takes its place. -/
theorem Loaded.replace (h : Loaded s) (hfind : (s.appHistory.find? e.key).isSome = true) (he : FromFile e) :
    Loaded {s with appHistory := s.appHistory.put e} := by
  have hlength : (s.appHistory.put e).rows.length = s.appHistory.rows.length := by
    rw [Table.length_put, if_pos hfind]
  refine ⟨by rw [hlength]; exact h.counted, by rw [hlength]; exact h.bounded, ?_⟩
  intro x hx
  rcases Table.mem_put.mp hx with rfl | ⟨hx, -⟩
  · exact he
  · exact h.entries x hx

/-- A row of a new key needs room. -/
theorem Loaded.insert (h : Loaded s) (hfind : ¬(s.appHistory.find? e.key).isSome = true) (he : FromFile e)
    (hroom : s.entryCount < lsmHistoryMaxEntries) :
    Loaded {s with appHistory := s.appHistory.put e, entryCount := s.entryCount + 1} := by
  have hlength : (s.appHistory.put e).rows.length = s.appHistory.rows.length + 1 := by
    rw [Table.length_put, if_neg hfind]
  have hcount := h.counted
  refine ⟨by rw [hlength, ← hcount], by rw [hlength]; omega, ?_⟩
  intro x hx
  rcases Table.mem_put.mp hx with rfl | ⟨hx, -⟩
  · exact he
  · exact h.entries x hx

theorem Loaded.overLimit (h : Loaded s) (walk : Walk LsmHistoryEntry)
    (hfind : ¬(s.appHistory.find? e.key).isSome = true) (he : FromFile e) : Loaded (loadOverLimit walk s e).1 := by
  unfold loadOverLimit
  split
  · exact h
  · split
    · exact h
    · cases hremove : historyRemoveOldest walk s 0 with
      | none => exact h
      | some t =>
        obtain ⟨oldest, hmem, -, -, rfl⟩ := historyRemoveOldest_some hremove
        have hlength := s.appHistory.length_erase [oldest] (List.nodup_singleton _) (by simpa using hmem)
        simp only [List.map_cons, List.map_nil, List.length_cons, List.length_nil] at hlength
        have hcount := h.counted
        have hbound := h.bounded
        have hsmaller : Loaded {s with appHistory := s.appHistory.erase [oldest.key], entryCount := s.entryCount - 1} := by
          refine ⟨?_, ?_, ?_⟩
          · show s.entryCount - 1 = (s.appHistory.erase [oldest.key]).rows.length
            omega
          · show (s.appHistory.erase [oldest.key]).rows.length ≤ _
            omega
          intro x hx
          exact h.entries x (Table.mem_erase.mp hx).1
        apply hsmaller.insert _ he
        · show s.entryCount - 1 < _
          omega
        · intro hsome
          obtain ⟨x, hx⟩ := Option.isSome_iff_exists.mp hsome
          obtain ⟨hx, hkey⟩ := Table.find?_eq_some.mp hx
          apply hfind
          rw [Table.find?_eq_some.mpr ⟨(Table.mem_erase.mp hx).1, hkey⟩]
          rfl

theorem Loaded.record (h : Loaded s) (numerals : Numerals) (walk : Walk LsmHistoryEntry) {line : Text}
    (hnul : 0 ∉ line) : Loaded (historyLoadRecord numerals walk s line).1 := by
  unfold historyLoadRecord
  by_cases hskip : line = [] ∨ line.head? = some 35
  · rw [if_pos hskip]
    exact h
  · rw [if_neg hskip]
    cases hloaded : loadedEntry numerals (Lines.strsplit 9 11 line) with
    | none => exact h
    | some e =>
      have he := loadedEntry_fromFile hnul (fun hhead => hskip (Or.inr hhead)) hloaded
      by_cases hfind : (s.appHistory.find? e.key).isSome = true
      · simp only [if_pos hfind]
        exact h.replace hfind he
      · simp only [if_neg hfind]
        split
        · exact h.overLimit walk hfind he
        · exact h.insert hfind he (by omega)

end

theorem historyLoadPath_loaded (numerals : Numerals) (walk : Walk LsmHistoryEntry) (bytes : Text) :
    Loaded (historyLoadPath numerals walk bytes).1 := by
  apply Lines.foldLines_induct (fun acc : LsmHistoryState × Bool => Loaded acc.1)
  · intro acc line hnul h
    exact h.record numerals walk hnul
  · intro acc h
    exact h
  · exact ⟨rfl, Nat.zero_le _, fun e he => absurd he List.not_mem_nil⟩

/-- What the worker hands over for the bytes of a file. -/
def historyLoadResult (numerals : Numerals) (walk : Walk LsmHistoryEntry) (bytes : Text) : LsmHistoryLoadResult where
  entries := (historyLoadPath numerals walk bytes).1.appHistory
  truncated := (historyLoadPath numerals walk bytes).2
  bounded := (historyLoadPath_loaded numerals walk bytes).bounded
  unstamped e he := ((historyLoadPath_loaded numerals walk bytes).entries e he).liveGeneration

/-! ### The order of a walk -/

/-- The recency order tells entries of different keys apart. -/
theorem eq_key_of_recency {a b : LsmHistoryEntry} (hab : (historyEntryRecencyCompare a b).isLE = true)
    (hba : (historyEntryRecencyCompare b a).isLE = true) : a.key = b.key := by
  have heq := Std.OrientedCmp.isLE_antisymm hab hba
  simp only [historyEntryRecencyCompare, compareLex_eq_eq, compareOn] at heq
  exact Std.LawfulEqCmp.eq_of_compare heq.2.2

theorem historyOldestKey_walk (walk walk' : Walk LsmHistoryEntry) (s : LsmHistoryState) (protectedGeneration : Nat) :
    historyOldestKey walk s protectedGeneration = historyOldestKey walk' s protectedGeneration := by
  have hperm := (walk.perm s.appHistory.rows).trans (walk'.perm s.appHistory.rows).symm
  unfold historyOldestKey
  rw [oldest_perm hperm]
  intro x hx y hy hxy hyx
  exact s.appHistory.eq_of_key ((walk.mem _ x).mp hx) ((walk.mem _ y).mp hy) (eq_key_of_recency hxy hyx)

theorem historyLoadPath_walk (numerals : Numerals) (walk walk' : Walk LsmHistoryEntry) (bytes : Text) :
    historyLoadPath numerals walk bytes = historyLoadPath numerals walk' bytes := by
  have hline : historyLoadLine numerals walk = historyLoadLine numerals walk' := by
    funext acc line
    simp only [historyLoadLine, historyLoadRecord, loadOverLimit, historyRemoveOldest,
      historyOldestKey_walk walk walk']
  unfold historyLoadPath
  rw [hline]

end SystemMonitor.History
