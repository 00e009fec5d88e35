import SystemMonitor.Mounts.Model

/-! The filesystem inventory is all or nothing.

Records are appended as the lines are read, and the first line that is torn or
malformed ends the read with what was appended so far still in the collector. Nothing of
it is published. `inventory_all_or_nothing` says when there is an inventory, and what is
in it. -/
namespace SystemMonitor.Mounts
open Lib

variable (lib : Library) (host : Host)

/-- What the item of a record has to show. -/
structure ItemOf (entry : LsmMountInfoEntry) (item : LsmFilesystemInfo) : Prop where
  source : item.source = entry.source
  target : item.target = entry.target
  filesystem : item.filesystem = entry.filesystem
  used : item.capacityAvailable = true → item.usedBytes + item.freeBytes = item.totalBytes
  available : item.capacityAvailable = true → item.availableBytes ≤ item.totalBytes

/-- A capacity adds up, and nothing else is changed by it. -/
theorem ItemOf.collectCapacity {entry : LsmMountInfoEntry} {item : LsmFilesystemInfo} (h : ItemOf entry item)
    (information : Option Statvfs) : ItemOf entry (Mounts.collectCapacity lib information item) := by
  cases information with
  | none => exact h
  | some information =>
    simp only [Mounts.collectCapacity]
    split
    · rename_i total freeAll available _ _ _
      refine ⟨h.source, h.target, h.filesystem, fun _ => ?_, fun _ => ?_⟩
      · simp only
        split <;> split <;> omega
      · simp only
        split <;> omega
    · exact h

/-- One record is appended, or the collector says that there was no memory. -/
theorem appendMount_eq (entry : LsmMountInfoEntry) (collector : FilesystemCollector) :
    (host.reserve (collector.items.length + 1) = true ∧ ∃ item, ItemOf entry item ∧
      appendMount lib host entry collector = (true, {collector with items := collector.items ++ [item]})) ∨
    (host.reserve (collector.items.length + 1) = false ∧
      appendMount lib host entry collector = (false, {collector with allocationFailed := true})) := by
  rw [appendMount]
  cases hreserve : host.reserve (collector.items.length + 1) with
  | false => exact Or.inr ⟨rfl, rfl⟩
  | true =>
    refine Or.inl ⟨rfl, _, ItemOf.collectCapacity lib ?_ _, rfl⟩
    exact ⟨Chars.copyString_self _, Chars.copyString_self _, Chars.copyString_self _, nofun, nofun⟩

/-- What is collected when the loop over the lines comes to its end. -/
structure Collected (lines : List Text) (before after : FilesystemCollector) : Prop where
  items : ∃ entries made, lines.map (recordOf lib) = entries.map some ∧ List.Forall₂ ItemOf entries made ∧
    after.items = before.items ++ made
  allocated : after.allocationFailed = before.allocationFailed

theorem visitLoop_complete (lines : List Text) (count : Nat) (collector : FilesystemCollector) :
    ((visitLoop lib (appendMount lib host) lines count collector).1 = .complete ↔
      (∀ line ∈ lines, (recordOf lib line).isSome = true) ∧
        ∀ n < lines.length, host.reserve (collector.items.length + n + 1) = true) ∧
    ((visitLoop lib (appendMount lib host) lines count collector).1 = .complete →
      Collected lib lines collector (visitLoop lib (appendMount lib host) lines count collector).2.2) := by
  induction lines generalizing count collector with
  | nil =>
    refine ⟨iff_of_true rfl ⟨nofun, nofun⟩, fun _ => ⟨⟨[], [], rfl, .nil, ?_⟩, rfl⟩⟩
    exact (List.append_nil _).symm
  | cons line lines ih =>
    rw [visitLoop]
    cases hrecord : recordOf lib line with
    | none =>
      refine ⟨iff_of_false nofun fun h => ?_, nofun⟩
      have hline := h.1 line (List.mem_cons_self ..)
      rw [hrecord] at hline
      cases hline
    | some entry =>
      simp only
      rcases appendMount_eq lib host entry collector with ⟨hreserve, item, hitem, happend⟩ | ⟨hreserve, happend⟩
      · rw [happend]
        simp only [if_true]
        obtain ⟨hiff, hcollected⟩ := ih (count + 1) {collector with items := collector.items ++ [item]}
        constructor
        · rw [hiff, List.forall_mem_cons, hrecord]
          have hnext : ∀ n, (collector.items ++ [item]).length + n + 1 = collector.items.length + (n + 1) + 1 := by
            intro n
            rw [List.length_append, List.length_singleton]
            omega
          constructor
          · intro ⟨hlines, hmemory⟩
            refine ⟨⟨rfl, hlines⟩, fun n hn => ?_⟩
            cases n with
            | zero => exact hreserve
            | succ n => exact hnext n ▸ hmemory n (Nat.lt_of_succ_lt_succ hn)
          · intro ⟨⟨_, hlines⟩, hmemory⟩
            exact ⟨hlines, fun n hn => hnext n ▸ hmemory (n + 1) (Nat.succ_lt_succ hn)⟩
        · intro hcomplete
          obtain ⟨⟨entries, made, hentries, hmade, hitems⟩, hallocated⟩ := hcollected hcomplete
          refine ⟨⟨entry :: entries, item :: made, ?_, .cons hitem hmade, ?_⟩, hallocated⟩
          · rw [List.map_cons, List.map_cons, hrecord, hentries]
          · rw [hitems, List.append_assoc]
            rfl
      · rw [happend]
        refine ⟨iff_of_false nofun fun h => ?_, nofun⟩
        have hfirst := h.2 0 (Nat.succ_pos _)
        rw [Nat.add_zero, hreserve] at hfirst
        cases hfirst

/-- A visit is complete when the file is read to its end without an error, every line is complete
and valid, and there is memory for every record. -/
structure Complete (mounts : MountFile) : Prop where
  readOk : mounts.readOk = true
  closeOk : mounts.closeOk = true
  memory : ∀ n < (getlines mounts.content).length, host.reserve (n + 1) = true
  lines : ∀ line ∈ getlines mounts.content,
    line.getLast? = some 10 ∧ (parseMountLine lib (Lines.cString line)).isSome = true

theorem recordOf_isSome (line : Text) : (recordOf lib line).isSome = true ↔
    line.getLast? = some 10 ∧ (parseMountLine lib (Lines.cString line)).isSome = true := by
  rw [recordOf]
  split
  · rename_i hlast
    exact (and_iff_right hlast).symm
  · rename_i hlast
    exact iff_of_false nofun fun h => hlast h.1

theorem visitFileChecked_iff (file : Option MountFile) :
    (lsmMountinfoVisitFileChecked lib file (appendMount lib host) {}).1 = true ↔
      ∃ mounts, file = some mounts ∧ Complete lib host mounts := by
  cases file with
  | none => exact iff_of_false nofun fun ⟨_, h, _⟩ => nomatch h
  | some mounts =>
    obtain ⟨hiff, -⟩ := visitLoop_complete lib host (getlines mounts.content) 0 {}
    simp only [lsmMountinfoVisitFileChecked, Bool.and_eq_true, beq_iff_eq, hiff, recordOf_isSome]
    constructor
    · intro ⟨⟨hread, hclose⟩, hlines, hmemory⟩
      exact ⟨mounts, rfl, hread, hclose, fun n hn => Nat.zero_add n ▸ hmemory n hn, hlines⟩
    · intro ⟨_, hsame, h⟩
      cases hsame
      exact ⟨⟨h.readOk, h.closeOk⟩, h.lines, fun n hn => (Nat.zero_add n).symm ▸ h.memory n hn⟩

/-- What a complete visit has collected. -/
theorem visitFileChecked_collected {mounts : MountFile} {count : Nat} {collector : FilesystemCollector}
    (h : lsmMountinfoVisitFileChecked lib (some mounts) (appendMount lib host) {} = (true, count, collector)) :
    Collected lib (getlines mounts.content) {} collector := by
  obtain ⟨-, hcollected⟩ := visitLoop_complete lib host (getlines mounts.content) 0 {}
  simp only [lsmMountinfoVisitFileChecked, Prod.mk.injEq, Bool.and_eq_true, beq_iff_eq] at h
  obtain ⟨⟨-, hcomplete⟩, hvisited⟩ := h
  have hsame := hcollected hcomplete
  rwa [hvisited] at hsame

/-- What is published of what was collected. -/
theorem collect_eq {file : Option MountFile} {readOk : Bool} {count : Nat} {collector : FilesystemCollector}
    (h : lsmMountinfoVisitFileChecked lib file (appendMount lib host) {} = (readOk, count, collector))
    (hallocated : readOk = true → collector.allocationFailed = false) :
    lsmFilesystemInventoryCollect lib host file =
      if readOk then (true, if collector.items = [] then none else some (lib.qsort collector.items), collector.items.length)
      else (false, none, 0) := by
  simp only [lsmFilesystemInventoryCollect, h]
  cases readOk with
  | false => rfl
  | true =>
    rw [hallocated rfl]
    cases collector.items with
    | nil => rfl
    | cons item items => rfl

/-- **The inventory is all or nothing.** It is there exactly when the visit is complete; then it
has one item for each record, in order of target and source, and otherwise nothing is
published. -/
theorem inventory_all_or_nothing (file : Option MountFile) :
    ((lsmFilesystemInventoryCollect lib host file).1 = true ↔ ∃ mounts, file = some mounts ∧ Complete lib host mounts) ∧
    (∀ mounts, file = some mounts → (lsmFilesystemInventoryCollect lib host file).1 = true →
      ∃ entries made items, (getlines mounts.content).map (recordOf lib) = entries.map some ∧
        List.Forall₂ ItemOf entries made ∧ items.Perm made ∧ items.Pairwise compareFilesystems ∧
        (lsmFilesystemInventoryCollect lib host file).2 = (if items = [] then none else some items, items.length)) ∧
    ((lsmFilesystemInventoryCollect lib host file).1 = false →
      (lsmFilesystemInventoryCollect lib host file).2 = (none, 0)) := by
  have hiff := visitFileChecked_iff lib host file
  cases hvisit : lsmMountinfoVisitFileChecked lib file (appendMount lib host) {} with
  | mk readOk visited =>
    obtain ⟨count, collector⟩ := visited
    rw [hvisit] at hiff
    cases readOk with
    | false =>
      rw [collect_eq lib host hvisit nofun]
      exact ⟨hiff, nofun, fun _ => rfl⟩
    | true =>
      cases file with
      | none => cases hvisit
      | some mounts =>
        obtain ⟨⟨entries, made, hentries, hmade, hitems⟩, hallocated⟩ := visitFileChecked_collected lib host hvisit
        rw [List.nil_append] at hitems
        rw [collect_eq lib host hvisit fun _ => hallocated]
        refine ⟨hiff, ?_, nofun⟩
        intro mounts' hsame _
        cases hsame
        have hperm : (lib.qsort collector.items).Perm made := hitems ▸ lib.qsort_perm collector.items
        refine ⟨entries, made, lib.qsort collector.items, hentries, hmade, hperm, lib.qsort_sorted _, ?_⟩
        have hlength : (lib.qsort collector.items).length = collector.items.length := (lib.qsort_perm _).length_eq
        have hnil : lib.qsort collector.items = [] ↔ collector.items = [] := by
          rw [← List.length_eq_zero_iff, hlength, List.length_eq_zero_iff]
        simp only [hlength, hnil, if_true]

end SystemMonitor.Mounts
