import Mathlib.Logic.Relation
import SystemMonitor.Process.DrmSnapshot

/-! What a caller sees of the graphics counters, whatever the order.

The snapshot is looked at as a map from engine keys, beside the memory and the flags. Within
the limits it is what the clients report, and beyond them the call fails with nothing
(`read_directory`). Both are a matter of what the descriptors report, so that neither the
order of the entries, nor further descriptors of a client, nor the order of the lines in a file
change the view (`clients_counted_once`). -/
namespace SystemMonitor.Process.Drm
open Lib

/-! ### The view of a caller -/

structure GpuView where
  available : Bool
  /-- Time and capacity. -/
  engine : Text → Option (Nat × Nat)
  memoryBytes : Nat
  engineCountersAvailable : Bool
  memoryAvailable : Bool

def viewOf (read : Bool × LsmProcessGpuSnapshot) : GpuView where
  available := read.1
  engine key := (read.2.engines.find? fun engine => engine.name.text = key).map fun engine =>
    (engine.timeNs, engine.capacity)
  memoryBytes := read.2.memoryBytes
  engineCountersAvailable := read.2.engineCountersAvailable
  memoryAvailable := read.2.memoryAvailable

/-- What some clients report together. -/
def totalsOf (clients : Finset ClientReport) : GpuView where
  available := decide ((engineKeys clients).Nonempty ∨ ∃ c ∈ clients, c.regions.Nonempty)
  engine key :=
    if key ∈ engineKeys clients then some (min (engineTime clients key) uint64Max, engineCapacity clients key) else none
  memoryBytes := min (memoryTotal clients) uint64Max
  engineCountersAvailable := decide (engineKeys clients).Nonempty
  memoryAvailable := decide (∃ c ∈ clients, c.regions.Nonempty)

variable {lib : Library} (directory : Text) (ds : List (Descriptor lib))

/-- The clients of a process, as their descriptors report them. -/
def clientsOf : Finset ClientReport := ((readings directory ds).filterMap Reading.report).toFinset

/-- No file fails, and the tables hold the clients and their engines. -/
structure Within : Prop where
  files : Reading.failed ∉ readings directory ds
  clients : (clientsOf directory ds).card ≤ maxClients
  engines : (engineKeys (clientsOf directory ds)).card ≤ maxEngines

section
variable {cs : List LsmDrmClient} {p : Progress}

theorem memoryBytes_total (hstands : ∀ c ∈ cs, Stands c (clientReport c))
    (hconsistent : Consistent (cs.map clientReport).toFinset) (h : p.Counts lib cs) :
    p.memoryBytes = min (memoryTotal (cs.map clientReport).toFinset) uint64Max := by
  rw [h.memoryBytes, memoryTotal, sum_clients hconsistent]
  congr 2
  refine List.map_congr_left fun c hc => ?_
  have hregions := (hstands c (Tally.mem_of_mem_firstsOf hc)).regions
  rw [clientReport, List.sum_toFinset _ hregions, List.map_map]
  rfl

theorem memoryAvailable_iff (hstands : ∀ c ∈ cs, Stands c (clientReport c))
    (hconsistent : Consistent (cs.map clientReport).toFinset) (h : p.Counts lib cs) :
    p.memoryAvailable = true ↔ ∃ c ∈ (cs.map clientReport).toFinset, c.regions.Nonempty := by
  rw [h.memoryAvailable, List.any_eq_true, ← toFinset_firsts hconsistent]
  constructor
  · rintro ⟨c, hc, havailable⟩
    have hmemory := (hstands c (Tally.mem_of_mem_firstsOf hc)).memory
    exact ⟨clientReport c, List.mem_toFinset.mpr (List.mem_map_of_mem hc), hmemory.mp havailable⟩
  · rintro ⟨report, hreport, hregions⟩
    obtain ⟨c, hc, rfl⟩ := List.mem_map.mp (List.mem_toFinset.mp hreport)
    exact ⟨c, hc, (hstands c (Tally.mem_of_mem_firstsOf hc)).memory.mpr hregions⟩

theorem engines_nonempty_iff (hconsistent : Consistent (cs.map clientReport).toFinset) (h : p.Counts lib cs) :
    0 < p.engines.length ↔ (engineKeys (cs.map clientReport).toFinset).Nonempty := by
  rw [List.length_pos_iff_exists_mem]
  constructor
  · rintro ⟨row, hrow⟩
    exact ⟨_, (mem_rows hconsistent h.engines).mp (List.mem_map_of_mem hrow)⟩
  · rintro ⟨key, hkey⟩
    obtain ⟨row, hrow, -⟩ := List.mem_map.mp ((mem_rows hconsistent h.engines).mpr hkey)
    exact ⟨row, hrow⟩

theorem view_engine (hstands : ∀ c ∈ cs, Stands c (clientReport c)) (hconsistent : Consistent (cs.map clientReport).toFinset)
    (h : p.Counts lib cs) (key : Text) :
    (viewOf (true, snapshotOf p)).engine key = (totalsOf (cs.map clientReport).toFinset).engine key := by
  have hmap : (viewOf (true, snapshotOf p)).engine key =
      (p.engines.find? fun row => row.name.text = key).map fun row => (row.timeNs, row.capacity) := by
    rw [viewOf, snapshotOf]
    dsimp only
    rw [List.find?_map, Option.map_map]
    rfl
  have hmem := @mem_rows lib cs p.engines hconsistent h.engines key
  rw [hmap, totalsOf]
  dsimp only
  cases hfind : p.engines.find? fun row => row.name.text = key with
  | none =>
    rw [if_neg, Option.map_none]
    intro hkey
    obtain ⟨row, hrow, hname⟩ := List.mem_map.mp (hmem.mpr hkey)
    exact absurd hname (by simpa using List.find?_eq_none.mp hfind row hrow)
  | some row =>
    have hrow := List.mem_of_find?_eq_some hfind
    have hname : row.name.text = key := by simpa using List.find?_some hfind
    have htotals := rows_totals hstands hconsistent h.engines hrow
    rw [hname] at htotals
    rw [if_pos (hmem.mp (List.mem_map.mpr ⟨row, hrow, hname⟩)), Option.map_some, htotals.1, htotals.2]

end

/-! ### The call -/

section
variable {directories : Text → Option Listing} {procRoot : Text} {pid : Nat} {entries : List FdEntry}

theorem read_none (hroot : procRoot ≠ []) (hpid : pid ≠ 0) (hpath : (fdinfoPath procRoot pid).length < 512)
    (hopen : directories (fdinfoPath procRoot pid) = some ⟨entries, true, true⟩) (snapshot : LsmProcessGpuSnapshot)
    (hnone : entries.foldlM (readEntry lib (fdinfoPath procRoot pid)) {} = none) :
    lsmProcessGpuRead lib directories procRoot pid snapshot = (false, {}) := by
  rw [lsmProcessGpuRead, if_neg (not_or.mpr ⟨hroot, hpid⟩), if_neg (Nat.not_le.mpr hpath), hopen]
  dsimp only
  rw [hnone]

theorem read_some (hroot : procRoot ≠ []) (hpid : pid ≠ 0) (hpath : (fdinfoPath procRoot pid).length < 512)
    (hopen : directories (fdinfoPath procRoot pid) = some ⟨entries, true, true⟩) (snapshot : LsmProcessGpuSnapshot)
    {p : Progress} (hsome : entries.foldlM (readEntry lib (fdinfoPath procRoot pid)) {} = some p) :
    lsmProcessGpuRead lib directories procRoot pid snapshot =
      ((snapshotOf p).engineCountersAvailable || (snapshotOf p).memoryAvailable, snapshotOf p) := by
  rw [lsmProcessGpuRead, if_neg (not_or.mpr ⟨hroot, hpid⟩), if_neg (Nat.not_le.mpr hpath), hopen]
  dsimp only
  rw [hsome]
  rfl

end

/-- What was accumulated is seen as the totals of the clients. -/
theorem view_totals {cs : List LsmDrmClient} {p : Progress} (hstands : ∀ c ∈ cs, Stands c (clientReport c))
    (hconsistent : Consistent (cs.map clientReport).toFinset) (h : p.Counts lib cs) :
    viewOf ((snapshotOf p).engineCountersAvailable || (snapshotOf p).memoryAvailable, snapshotOf p) =
      totalsOf (cs.map clientReport).toFinset := by
  have hengines := engines_nonempty_iff hconsistent h
  have hmemory := memoryAvailable_iff hstands hconsistent h
  have hcounters : (snapshotOf p).engineCountersAvailable = decide (engineKeys (cs.map clientReport).toFinset).Nonempty :=
    decide_eq_decide.mpr hengines
  have havailable : p.memoryAvailable = decide (∃ c ∈ (cs.map clientReport).toFinset, c.regions.Nonempty) := by
    rw [Bool.eq_iff_iff, decide_eq_true_iff]
    exact hmemory
  have hengine := funext (view_engine hstands hconsistent h)
  have hbytes := memoryBytes_total hstands hconsistent h
  rw [hcounters, show (snapshotOf p).memoryAvailable = _ from havailable, ← Bool.decide_or]
  exact GpuView.mk.injEq .. ▸ ⟨rfl, hengine, hbytes, hcounters, havailable⟩

/-- Within the limits the loop accumulates what the clients report, and otherwise it fails. -/
theorem foldlM_totals (hconsistent : Consistent (clientsOf directory ds)) :
    (Within directory ds ∧ ∃ p, (ds.map Descriptor.entry).foldlM (readEntry lib directory) {} = some p ∧
      (p.engines.map (·.name)).Nodup ∧
      viewOf ((snapshotOf p).engineCountersAvailable || (snapshotOf p).memoryAvailable, snapshotOf p) =
        totalsOf (clientsOf directory ds)) ∨
    ¬ Within directory ds ∧ (ds.map Descriptor.entry).foldlM (readEntry lib directory) {} = none := by
  rcases foldlM_readEntry directory ds with ⟨hfailed, hnone⟩ | ⟨hfiles, cs, hcs, hrun⟩
  · exact .inr ⟨fun h => h.files hfailed, hnone {}⟩
  obtain ⟨hreports, hstands⟩ := reports_of_stands hcs
  have hclients : clientsOf directory ds = (cs.map clientReport).toFinset := by rw [clientsOf, hreports]
  rw [hclients] at hconsistent ⊢
  rw [hrun]
  rcases @foldlM_accept lib cs with ⟨p, hp, hcounts⟩ | ⟨hnone, hover⟩
  · refine .inl ⟨⟨hfiles, ?_, ?_⟩, p, hp, ?_, ?_⟩
    · rw [hclients, card_clients hconsistent]
      exact hcounts.room
    · rw [hclients, ← @engineRows_isSome lib cs hconsistent, hcounts.engines]
      rfl
    · have hnodup := (rows_tallied hcounts.engines).nodup
      refine List.Nodup.of_map Chars.text ?_
      rw [List.map_map]
      exact hnodup
    · exact view_totals hstands hconsistent hcounts
  · refine .inr ⟨fun h => ?_, hnone⟩
    rcases hover with hmany | hengines
    · have hle := h.clients
      rw [hclients, card_clients hconsistent] at hle
      exact absurd hmany (Nat.not_lt.mpr hle)
    · have hle := h.engines
      rw [hclients, ← @engineRows_isSome lib cs hconsistent, hengines] at hle
      cases hle

/-! ### Another order -/

/-- A descriptor under another number of the process. -/
theorem Descriptor.reading_named {d : Descriptor lib} {name : Text} (hd : d.listed directory = true)
    (hname : ({d with name := name} : Descriptor lib).listed directory = true) :
    ({d with name := name} : Descriptor lib).reading directory = d.reading directory := by
  rw [Descriptor.reading, Descriptor.reading, if_pos hd, if_pos hname]

/-- One change of the directory that leaves its clients. -/
inductive Rearranged : List (Descriptor lib) → List (Descriptor lib) → Prop
  /-- The entries are found in another order. -/
  | entries {ds es : List (Descriptor lib)} : ds.Perm es → Rearranged ds es
  /-- A client has a descriptor more. -/
  | duplicate {ds : List (Descriptor lib)} {d e : Descriptor lib} :
    d ∈ ds → e.reading directory = d.reading directory → Rearranged ds (e :: ds)
  /-- The lines of a file stand in another order. -/
  | lines {front back : List (Descriptor lib)} {d : Descriptor lib} {f g : DrmFile lib} :
    d.file = some f → f.lines.Perm g.lines → Rearranged (front ++ d :: back) (front ++ {d with file := some g} :: back)

variable {directory ds} {es : List (Descriptor lib)}

theorem Rearranged.mem_readings (h : Rearranged directory ds es) (reading : Reading) :
    reading ∈ readings directory ds ↔ reading ∈ readings directory es := by
  cases h with
  | entries hperm => exact (hperm.map _).mem_iff
  | duplicate hd hreading =>
    rw [readings, readings, List.map_cons, hreading, List.mem_cons, iff_or_self]
    rintro rfl
    exact List.mem_map_of_mem hd
  | @lines front back d f g hfile hperm =>
    have hsame : ({d with file := some g} : Descriptor lib).reading directory = d.reading directory := by
      rw [Descriptor.reading, Descriptor.reading, hfile]
      dsimp only
      rw [DrmFile.reading_perm hperm]
      rfl
    rw [readings, readings, List.map_append, List.map_append, List.map_cons, List.map_cons, hsame]

theorem clientsOf_congr (h : ∀ reading, reading ∈ readings directory ds ↔ reading ∈ readings directory es) :
    clientsOf directory ds = clientsOf directory es := by
  ext report
  rw [clientsOf, clientsOf, List.mem_toFinset, List.mem_toFinset, List.mem_filterMap, List.mem_filterMap]
  exact exists_congr fun reading => and_congr_left' (h reading)

theorem within_congr (h : ∀ reading, reading ∈ readings directory ds ↔ reading ∈ readings directory es) :
    Within directory ds ↔ Within directory es := by
  have hclients := clientsOf_congr h
  constructor
  · rintro ⟨hfiles, hcount, hengines⟩
    exact ⟨fun hmem => hfiles ((h _).mpr hmem), hclients ▸ hcount, hclients ▸ hengines⟩
  · rintro ⟨hfiles, hcount, hengines⟩
    exact ⟨fun hmem => hfiles ((h _).mp hmem), hclients ▸ hcount, hclients ▸ hengines⟩

/-- Any number of changes. -/
theorem mem_readings_of_rearranged (h : Relation.ReflTransGen (Rearranged directory) ds es) (reading : Reading) :
    reading ∈ readings directory ds ↔ reading ∈ readings directory es := by
  induction h with
  | refl => exact Iff.rfl
  | tail _ hstep ih => exact ih.trans (hstep.mem_readings reading)

section
variable {directories : Text → Option Listing} {procRoot : Text} {pid : Nat}

/-- What a caller gets of a directory. -/
theorem read_directory (hroot : procRoot ≠ []) (hpid : pid ≠ 0) (hpath : (fdinfoPath procRoot pid).length < 512)
    (hopen : directories (fdinfoPath procRoot pid) = some ⟨ds.map Descriptor.entry, true, true⟩)
    (hconsistent : Consistent (clientsOf (fdinfoPath procRoot pid) ds)) (snapshot : LsmProcessGpuSnapshot) :
    ((lsmProcessGpuRead lib directories procRoot pid snapshot).2.engines.map (·.name)).Nodup ∧
      (Within (fdinfoPath procRoot pid) ds → viewOf (lsmProcessGpuRead lib directories procRoot pid snapshot) =
        totalsOf (clientsOf (fdinfoPath procRoot pid) ds)) ∧
      (¬ Within (fdinfoPath procRoot pid) ds → lsmProcessGpuRead lib directories procRoot pid snapshot = (false, {})) := by
  rcases foldlM_totals (fdinfoPath procRoot pid) ds hconsistent with ⟨hwithin, p, hp, hnodup, hview⟩ | ⟨hbeyond, hnone⟩
  · rw [read_some hroot hpid hpath hopen snapshot hp]
    refine ⟨?_, fun _ => hview, fun h => absurd hwithin h⟩
    rw [snapshotOf, List.map_map]
    exact hnodup
  · rw [read_none hroot hpid hpath hopen snapshot hnone]
    exact ⟨List.nodup_nil, fun h => absurd h hbeyond, fun _ => rfl⟩

/-- **DRM clients are counted once, whatever the order.** -/
theorem clients_counted_once (hroot : procRoot ≠ []) (hpid : pid ≠ 0) (hpath : (fdinfoPath procRoot pid).length < 512)
    (hopen : directories (fdinfoPath procRoot pid) = some ⟨ds.map Descriptor.entry, true, true⟩)
    (hconsistent : Consistent (clientsOf (fdinfoPath procRoot pid) ds)) (snapshot : LsmProcessGpuSnapshot) :
    ((lsmProcessGpuRead lib directories procRoot pid snapshot).2.engines.map (·.name)).Nodup ∧
      (Within (fdinfoPath procRoot pid) ds → viewOf (lsmProcessGpuRead lib directories procRoot pid snapshot) =
        totalsOf (clientsOf (fdinfoPath procRoot pid) ds)) ∧
      (¬ Within (fdinfoPath procRoot pid) ds → lsmProcessGpuRead lib directories procRoot pid snapshot = (false, {})) ∧
      ∀ es, Relation.ReflTransGen (Rearranged (fdinfoPath procRoot pid)) ds es →
        ∀ directories', directories' (fdinfoPath procRoot pid) = some ⟨es.map Descriptor.entry, true, true⟩ →
          viewOf (lsmProcessGpuRead lib directories' procRoot pid snapshot) =
            viewOf (lsmProcessGpuRead lib directories procRoot pid snapshot) := by
  obtain ⟨hnodup, hwithin, hbeyond⟩ := read_directory hroot hpid hpath hopen hconsistent snapshot
  refine ⟨hnodup, hwithin, hbeyond, fun es hmoves directories' hopen' => ?_⟩
  have hreadings := mem_readings_of_rearranged hmoves
  have hclients := clientsOf_congr hreadings
  obtain ⟨-, hwithin', hbeyond'⟩ := read_directory hroot hpid hpath hopen' (hclients ▸ hconsistent) snapshot
  by_cases h : Within (fdinfoPath procRoot pid) ds
  · rw [hwithin h, hwithin' ((within_congr hreadings).mp h), hclients]
  · rw [hbeyond h, hbeyond' fun h' => h ((within_congr hreadings).mpr h')]

end

/-! ### Two clients -/

/-- Client and time. -/
def renderTimes : List (Nat × Nat) := [(7, uint64Max), (8, 1)]

def renderLines (c : Nat × Nat) : List Text :=
  [ascii "drm-driver: i915", ascii "drm-pdev: 0000:00:02.0", ascii "drm-client-id: " ++ Decimal.print c.1,
    ascii "drm-engine-render: " ++ Decimal.print c.2 ++ ascii " ns"]

theorem renderLines_described : ∀ c ∈ renderTimes, ((∀ line ∈ renderLines c, 10 ∉ line) ∧
    (∀ line ∈ renderLines c, 0 ∉ line) ∧ ∀ line ∈ renderLines c, line.length < 512) ∧
    ((renderLines c).filterMap keyOf).Nodup ∧ (∀ item ∈ itemsOf .documented (renderLines c), item.Fits) ∧
    Item.pdev [] ∉ itemsOf .documented (renderLines c) ∧
    (clientIdOf (itemsOf .documented (renderLines c))).isSome = true := by
  decide +kernel

theorem renderLines_plain {c : Nat × Nat} (hc : c ∈ renderTimes) : Plain (renderLines c) := by
  obtain ⟨hnewline, hnul, hshort⟩ := (renderLines_described c hc).1
  exact ⟨hnewline, hnul, hshort⟩

def renderFile (c : Nat × Nat) (hc : c ∈ renderTimes) : DrmFile .documented where
  lines := renderLines c
  plain := renderLines_plain hc
  distinct := (renderLines_described c hc).2.1.sublist (map_key_itemsOf .documented (renderLines c))
  fits := (renderLines_described c hc).2.2.1
  addressed h := absurd h (renderLines_described c hc).2.2.2.1
  identified _ := (renderLines_described c hc).2.2.2.2

/-- A client at the greatest time. -/
def longest : DrmFile .documented := renderFile (7, uint64Max) List.mem_cons_self

/-- Another client of its engine. -/
def shortest : DrmFile .documented := renderFile (8, 1) (List.mem_cons_of_mem _ List.mem_cons_self)

def fdinfo : Text := fdinfoPath (ascii "/proc") 7

/-- A process with one directory of descriptors. -/
def opened (ds : List (Descriptor .documented)) (_ : Text) : Option Listing := some ⟨ds.map Descriptor.entry, true, true⟩

def third : Descriptor .documented := ⟨ascii "3", some longest, false⟩

def fourth : Descriptor .documented := ⟨ascii "4", some shortest, false⟩

/-- The sum has a ceiling. -/
theorem two_clients_saturate :
    (viewOf (lsmProcessGpuRead .documented (opened [third, fourth]) (ascii "/proc") 7 {})).engine
        (ascii "i915:0000:00:02.0:render") = some (uint64Max, 1) ∧
      engineTime (clientsOf fdinfo [third, fourth]) (ascii "i915:0000:00:02.0:render") = uint64Max + 1 := by
  decide +kernel

/-- Another descriptor of the first client. -/
def fifth : Descriptor .documented := {third with name := ascii "5"}

/-- The lines turned round. -/
def turned : Descriptor .documented :=
  {third with file := some (longest.reordered (List.reverse_perm longest.lines).symm)}

theorem rearranged_turned : Relation.ReflTransGen (Rearranged fdinfo) [third, fourth] [fifth, fourth, turned] := by
  have hthree : third.listed fdinfo = true := by decide
  have hfive : fifth.listed fdinfo = true := by decide
  have hmore : Rearranged fdinfo [third, fourth] [fifth, third, fourth] :=
    .duplicate List.mem_cons_self (Descriptor.reading_named fdinfo hthree hfive)
  have hlines : Rearranged fdinfo [fifth, third, fourth] [fifth, turned, fourth] :=
    @Rearranged.lines _ _ [fifth] [fourth] third longest _ rfl (List.reverse_perm longest.lines).symm
  have hentries : Rearranged fdinfo [fifth, turned, fourth] [fifth, fourth, turned] :=
    .entries ((List.Perm.swap fourth turned []).cons fifth)
  exact ((Relation.ReflTransGen.single hmore).tail hlines).tail hentries

/-- The same view of another listing. -/
theorem two_clients_rearranged :
    viewOf (lsmProcessGpuRead .documented (opened [fifth, fourth, turned]) (ascii "/proc") 7 {}) =
      viewOf (lsmProcessGpuRead .documented (opened [third, fourth]) (ascii "/proc") 7 {}) := by
  have hroot : ascii "/proc" ≠ [] := by decide
  have hpath : fdinfo.length < 512 := by decide
  have hconsistent : Consistent (clientsOf fdinfo [third, fourth]) := by
    unfold Consistent
    decide +kernel
  obtain ⟨-, -, -, hsame⟩ := @clients_counted_once .documented [third, fourth] (opened [third, fourth]) (ascii "/proc") 7
    hroot (by decide) hpath rfl hconsistent {}
  exact hsame [fifth, fourth, turned] rearranged_turned (opened [fifth, fourth, turned]) rfl

end SystemMonitor.Process.Drm
