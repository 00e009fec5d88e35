import Mathlib.Order.Lattice
import SystemMonitor.Process.DrmFiles

/-! The totals of a process over its clients.

The loop counts the first descriptor of every client, so what it accumulates is a matter of
the clients and not of their descriptors, and the sums that saturate do not depend on their
order (`Progress.Counts`). It fails when a file does (`foldlM_readEntry`), and when there are
more clients or engines than its tables hold (`foldlM_accept`). -/
namespace SystemMonitor.Process.Drm
open Lib

variable {lib : Library}

/-! ### From entries to clients -/

def Reading.report : Reading → Option ClientReport
  | .client report => some report
  | _ => none

variable (directory : Text)

theorem readEntry_described (d : Descriptor lib) :
    (d.reading directory = .failed ∧ ∀ p, readEntry lib directory p d.entry = none) ∨
    (d.reading directory = .skipped ∧ ∀ p, readEntry lib directory p d.entry = some p) ∨
    ∃ report client, d.reading directory = .client report ∧ Stands client report ∧
      ∀ p, readEntry lib directory p d.entry = p.accept lib client := by
  cases hlisted : d.listed directory with
  | false =>
    refine .inr (.inl ⟨by rw [Descriptor.reading, hlisted]; rfl, fun p => ?_⟩)
    rw [Descriptor.listed, Bool.and_eq_false_iff, decide_eq_false_iff_not, Nat.not_lt] at hlisted
    rw [readEntry, Descriptor.entry]
    dsimp only
    split
    · rfl
    · rename_i hnumber
      rw [if_pos]
      refine hlisted.resolve_left fun hnone => hnumber ?_
      rw [← Option.not_isSome, hnone]
      rfl
  | true =>
    rw [Descriptor.reading, hlisted, if_pos rfl]
    rw [Descriptor.listed, Bool.and_eq_true, decide_eq_true_iff] at hlisted
    have hnumber : ¬ (lib.helpers.parseU64Range d.name 0 intMax).isNone = true := by
      rw [← Option.not_isSome, hlisted.1]
      exact Bool.false_ne_true
    have hread : ∀ p, readEntry lib directory p d.entry =
        if !(readClientFile lib (lib.fullPath directory d.name) d.entry.file).complete then none
        else if !(readClientFile lib (lib.fullPath directory d.name) d.entry.file).recognised then some p
        else p.accept lib (readClientFile lib (lib.fullPath directory d.name) d.entry.file).client := by
      intro p
      rw [readEntry]
      exact (if_neg hnumber).trans (if_neg (Nat.not_le.mpr hlisted.2))
    cases hfile : d.file with
    | none =>
      refine .inr (.inl ⟨rfl, fun p => ?_⟩)
      rw [hread, Descriptor.entry, hfile]
      rfl
    | some f =>
      have hopened : d.entry.file = some ⟨textOf f.lines, d.failed⟩ := by rw [Descriptor.entry, hfile]; rfl
      rw [hopened] at hread
      rcases readClientFile_described f d.failed (lib.fullPath directory d.name) with
        ⟨hreading, hcomplete⟩ | ⟨hreading, hcomplete, hrecognised⟩ | ⟨report, hreading, hcomplete, hrecognised, hstands⟩
      · refine .inl ⟨hreading, fun p => ?_⟩
        rw [hread, hcomplete]
        rfl
      · refine .inr (.inl ⟨hreading, fun p => ?_⟩)
        rw [hread, hcomplete, hrecognised]
        rfl
      · refine .inr (.inr ⟨report, _, hreading, hstands, fun p => ?_⟩)
        rw [hread, hcomplete, hrecognised]
        rfl

variable (ds : List (Descriptor lib))

def readings : List Reading := ds.map fun d => d.reading directory

/-- The loop fails with a file that fails, and otherwise goes over clients. -/
theorem foldlM_readEntry : (Reading.failed ∈ readings directory ds ∧
      ∀ p, (ds.map Descriptor.entry).foldlM (readEntry lib directory) p = none) ∨
    Reading.failed ∉ readings directory ds ∧ ∃ cs : List LsmDrmClient,
      List.Forall₂ Stands cs ((readings directory ds).filterMap Reading.report) ∧
        ∀ p, (ds.map Descriptor.entry).foldlM (readEntry lib directory) p = cs.foldlM (Progress.accept lib) p := by
  induction ds with
  | nil => exact .inr ⟨List.not_mem_nil, [], .nil, fun _ => rfl⟩
  | cons d ds ih =>
    have hcons : readings directory (d :: ds) = d.reading directory :: readings directory ds := rfl
    have hfold : ∀ p, ((d :: ds).map Descriptor.entry).foldlM (readEntry lib directory) p =
        (readEntry lib directory p d.entry).bind ((ds.map Descriptor.entry).foldlM (readEntry lib directory)) :=
      fun p => List.foldlM_cons
    rw [hcons]
    rcases readEntry_described directory d with ⟨hfailed, hnone⟩ | ⟨hskipped, hsome⟩ | ⟨report, client, hclient, hstands, haccept⟩
    · refine .inl ⟨hfailed ▸ List.mem_cons_self .., fun p => ?_⟩
      rw [hfold, hnone]
      rfl
    · rw [hskipped]
      rcases ih with ⟨hfailed, hnone⟩ | ⟨hfailed, cs, hcs, hrun⟩
      · refine .inl ⟨List.mem_cons_of_mem _ hfailed, fun p => ?_⟩
        rw [hfold, hsome, Option.bind_some, hnone]
      · refine .inr ⟨by simpa using hfailed, cs, hcs, fun p => ?_⟩
        rw [hfold, hsome, Option.bind_some, hrun]
    · rw [hclient]
      rcases ih with ⟨hfailed, hnone⟩ | ⟨hfailed, cs, hcs, hrun⟩
      · refine .inl ⟨List.mem_cons_of_mem _ hfailed, fun p => ?_⟩
        rw [hfold]
        cases readEntry lib directory p d.entry with
        | none => rfl
        | some next => exact hnone next
      · refine .inr ⟨by simpa using hfailed, client :: cs, .cons hstands hcs, fun p => ?_⟩
        rw [hfold, haccept, List.foldlM_cons]
        exact congrArg _ (funext hrun)

/-! ### The first descriptor of every client -/

/-- The engines of a client under their keys. -/
def published (client : LsmDrmClient) : List EngineItem :=
  (client.engines.filter (·.timeAvailable)).map fun row =>
    ⟨engineKey client.deviceKey.text row.name.text, row.timeNs, row.capacity, true⟩

theorem publishEngines_eq (client : LsmDrmClient) (rows : List GpuEngine) :
    publishEngines lib client.deviceKey.text client.engines rows =
      (engineRules lib).addAll maxEngines rows (published client) := by
  rw [publishEngines, published]
  generalize client.engines = engines
  induction engines generalizing rows with
  | nil => rfl
  | cons row engines ih =>
    rw [List.foldlM_cons]
    cases htimed : row.timeAvailable with
    | false =>
      rw [List.filter_cons_of_neg (by rw [htimed]; exact Bool.false_ne_true)]
      exact ih rows
    | true =>
      rw [List.filter_cons_of_pos htimed, List.map_cons, Tally.Rules.addAll, List.foldlM_cons]
      have hadd := addEngine_eq lib rows ⟨engineKey client.deviceKey.text row.name.text, row.timeNs, row.capacity, true⟩
      dsimp only at hadd
      rw [← hadd]
      exact congrArg _ (funext ih)

def firsts (cs : List LsmDrmClient) : List LsmDrmClient := Tally.firstsOf LsmDrmClient.key cs

variable (lib) in
/-- The rows for the engines of some clients. -/
def engineRows (cs : List LsmDrmClient) : Option (List GpuEngine) :=
  (engineRules lib).addAll maxEngines [] ((firsts cs).flatMap published)

variable (lib) in
/-- What is accumulated over some clients. -/
structure Progress.Counts (cs : List LsmDrmClient) (p : Progress) : Prop where
  seen : p.seen = (firsts cs).map LsmDrmClient.key
  room : (firsts cs).length ≤ maxClients
  engines : engineRows lib cs = some p.engines
  memoryBytes : p.memoryBytes = min ((firsts cs).map fun c => (c.regions.map LsmDrmMemoryRegion.bytes).sum).sum uint64Max
  memoryAvailable : p.memoryAvailable = (firsts cs).any LsmDrmClient.memoryAvailable

variable (lib) in
/-- There are too many clients, or too many engines. -/
def Overflows (cs : List LsmDrmClient) : Prop := maxClients < (firsts cs).length ∨ engineRows lib cs = none

theorem firsts_concat (cs : List LsmDrmClient) (c : LsmDrmClient) :
    firsts (cs ++ [c]) = if c.key ∈ (firsts cs).map LsmDrmClient.key then firsts cs else firsts cs ++ [c] :=
  Tally.firstsOf_concat cs c

theorem engineRows_new {cs : List LsmDrmClient} {c : LsmDrmClient} (hnew : c.key ∉ (firsts cs).map LsmDrmClient.key) :
    engineRows lib (cs ++ [c]) =
      (engineRows lib cs).bind fun rows => (engineRules lib).addAll maxEngines rows (published c) := by
  rw [engineRows, firsts_concat, if_neg hnew, List.flatMap_append, List.flatMap_singleton, Tally.Rules.addAll_append]
  rfl

theorem Overflows.concat {cs : List LsmDrmClient} (h : Overflows lib cs) (c : LsmDrmClient) : Overflows lib (cs ++ [c]) := by
  by_cases hnew : c.key ∈ (firsts cs).map LsmDrmClient.key
  · rw [Overflows, engineRows, firsts_concat, if_pos hnew]
    exact h
  · rw [Overflows, engineRows_new hnew, firsts_concat, if_neg hnew, List.length_append]
    rcases h with hclients | hengines
    · exact .inl (Nat.lt_add_right _ hclients)
    · exact .inr (by rw [hengines, Option.bind_none])

theorem foldl_saturating (arith : Arithmetic) {α : Type} (f : α → Nat) (l : List α) {start : Nat} (h : start ≤ uint64Max) :
    l.foldl (fun sum a => arith.u64AddSaturating sum (f a)) start = min (start + (l.map f).sum) uint64Max := by
  induction l generalizing start with
  | nil => simp [Nat.min_eq_left h]
  | cons a l ih =>
    rw [List.foldl_cons, ih (arith.addSaturating_le start (f a)), arith.addSaturating_eq, List.map_cons, List.sum_cons]
    omega

/-- One client more is counted, or does not fit. -/
theorem Progress.Counts.accept {cs : List LsmDrmClient} {p : Progress} (h : p.Counts lib cs) (c : LsmDrmClient) :
    (∃ next, p.accept lib c = some next ∧ next.Counts lib (cs ++ [c])) ∨
      p.accept lib c = none ∧ Overflows lib (cs ++ [c]) := by
  rw [Progress.accept, h.seen, List.length_map]
  by_cases hnew : c.key ∈ (firsts cs).map LsmDrmClient.key
  · have hfirsts : firsts (cs ++ [c]) = firsts cs := by rw [firsts_concat, if_pos hnew]
    refine .inl ⟨p, if_pos hnew, ?_⟩
    exact ⟨hfirsts ▸ h.seen, hfirsts ▸ h.room, by rw [engineRows, hfirsts]; exact h.engines, hfirsts ▸ h.memoryBytes,
      hfirsts ▸ h.memoryAvailable⟩
  have hfirsts : firsts (cs ++ [c]) = firsts cs ++ [c] := by rw [firsts_concat, if_neg hnew]
  have hrows : engineRows lib (cs ++ [c]) = publishEngines lib c.deviceKey.text c.engines p.engines := by
    rw [engineRows_new hnew, h.engines, Option.bind_some, publishEngines_eq]
  rw [if_neg hnew]
  by_cases hfull : maxClients ≤ (firsts cs).length
  · refine .inr ⟨if_pos hfull, .inl ?_⟩
    rw [hfirsts, List.length_append]
    exact Nat.lt_succ_of_le hfull
  rw [if_neg hfull]
  cases hpublish : publishEngines lib c.deviceKey.text c.engines p.engines with
  | none => exact .inr ⟨rfl, .inr (hrows.trans hpublish)⟩
  | some engines =>
    refine .inl ⟨_, rfl, ⟨?_, ?_, hrows.trans hpublish, ?_, ?_⟩⟩
    · rw [hfirsts, List.map_append, List.map_singleton]
    · rw [hfirsts, List.length_append]
      exact Nat.lt_of_not_le hfull
    · dsimp only
      rw [h.memoryBytes, foldl_saturating lib.arithmetic _ _ (Nat.min_le_right _ _), hfirsts, List.map_append, List.sum_append,
        List.map_singleton, List.sum_singleton]
      omega
    · dsimp only
      rw [h.memoryAvailable, hfirsts, List.any_append, List.any_cons, List.any_nil, Bool.or_false]

/-- **The loop counts every client once, or they do not fit.** -/
theorem foldlM_accept (cs : List LsmDrmClient) :
    (∃ p, cs.foldlM (Progress.accept lib) {} = some p ∧ p.Counts lib cs) ∨
      cs.foldlM (Progress.accept lib) {} = none ∧ Overflows lib cs := by
  induction cs using List.reverseRecOn with
  | nil => exact .inl ⟨{}, rfl, rfl, Nat.zero_le _, rfl, rfl, rfl⟩
  | append_singleton cs c ih =>
    rw [List.foldlM_append]
    rcases ih with ⟨p, hp, hcounts⟩ | ⟨hnone, hover⟩
    · rw [hp]
      have hone : [c].foldlM (Progress.accept lib) p = p.accept lib c := by simp
      rcases hcounts.accept c with ⟨next, hnext, hcounts'⟩ | ⟨hfull, hover⟩
      · exact .inl ⟨next, hone.trans hnext, hcounts'⟩
      · exact .inr ⟨hone.trans hfull, hover⟩
    · rw [hnone]
      exact .inr ⟨rfl, hover.concat c⟩

end SystemMonitor.Process.Drm
