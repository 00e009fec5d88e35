import Mathlib.Order.Lattice.Nat
import SystemMonitor.Process.DrmTotals

/-! The snapshot of a process, as its clients report it.

The clients are a set, whatever descriptors they have and in whatever order these are found.
The time of an engine is the sum of what the clients report for it, with a ceiling, its
capacity the greatest one, and the memory is the sum over the regions. -/
namespace SystemMonitor.Process.Drm
open Lib

/-! ### Totals -/

/-- The engines of a client that are counted under a key. -/
def ClientReport.under (c : ClientReport) (key : Text) : Finset EngineReport :=
  c.engines.filter fun e => engineKey c.deviceKey e.name = key

section
variable (clients : Finset ClientReport)

def engineKeys : Finset Text := clients.biUnion fun c => c.engines.image fun e => engineKey c.deviceKey e.name

def engineTime (key : Text) : Nat := ∑ c ∈ clients, ∑ e ∈ c.under key, e.timeNs

def engineCapacity (key : Text) : Nat := clients.sup fun c => (c.under key).sup EngineReport.capacity

def memoryTotal : Nat := ∑ c ∈ clients, ∑ r ∈ c.regions, r.bytes

/-- All descriptors of one client report the same. -/
def Consistent : Prop := ∀ c ∈ clients, ∀ c' ∈ clients, c.key = c'.key → c = c'

end

/-! ### The clients that are counted -/

section
variable {cs : List LsmDrmClient} {rs : List ClientReport}

theorem reports_of_stands (h : List.Forall₂ Stands cs rs) :
    rs = cs.map clientReport ∧ ∀ c ∈ cs, Stands c (clientReport c) := by
  induction h with
  | nil => exact ⟨rfl, fun c hc => absurd hc List.not_mem_nil⟩
  | cons hstands _ ih =>
    have heq := hstands.eq
    refine ⟨by rw [List.map_cons, heq, ← ih.1], fun c hc => ?_⟩
    rcases List.mem_cons.mp hc with rfl | hc
    · exact heq.symm ▸ hstands
    · exact ih.2 c hc

theorem nodup_firsts (cs : List LsmDrmClient) : ((firsts cs).map clientReport).Nodup := by
  refine List.Nodup.of_map ClientReport.key ?_
  have hkeys : ((firsts cs).map LsmDrmClient.key).Nodup := by
    rw [firsts, Tally.map_firstsOf]
    exact nodup_keysOf cs
  have htexts : (((firsts cs).map LsmDrmClient.key).map Chars.text).Nodup := hkeys.map fun a b h => Chars.eq_of_text h
  rw [List.map_map] at htexts ⊢
  exact htexts

/-- The first descriptors stand for all clients. -/
theorem toFinset_firsts (hconsistent : Consistent (cs.map clientReport).toFinset) :
    ((firsts cs).map clientReport).toFinset = (cs.map clientReport).toFinset := by
  ext report
  rw [List.mem_toFinset, List.mem_toFinset, List.mem_map, List.mem_map]
  constructor
  · rintro ⟨c, hc, rfl⟩
    exact ⟨c, Tally.mem_of_mem_firstsOf hc, rfl⟩
  · rintro ⟨c, hc, rfl⟩
    obtain ⟨first, hfirst, hkey⟩ := @Tally.exists_mem_firstsOf _ _ _ LsmDrmClient.key _ _ hc
    refine ⟨first, hfirst, hconsistent _ ?_ _ ?_ (congrArg Chars.text hkey)⟩
    · exact List.mem_toFinset.mpr (List.mem_map_of_mem (Tally.mem_of_mem_firstsOf hfirst))
    · exact List.mem_toFinset.mpr (List.mem_map_of_mem hc)

theorem sum_clients (hconsistent : Consistent (cs.map clientReport).toFinset) (f : ClientReport → Nat) :
    ∑ c ∈ (cs.map clientReport).toFinset, f c = ((firsts cs).map fun c => f (clientReport c)).sum := by
  rw [← toFinset_firsts hconsistent, List.sum_toFinset _ (nodup_firsts cs), List.map_map]
  rfl

theorem card_clients (hconsistent : Consistent (cs.map clientReport).toFinset) :
    (cs.map clientReport).toFinset.card = (firsts cs).length := by
  rw [← toFinset_firsts hconsistent, List.toFinset_card_of_nodup (nodup_firsts cs), List.length_map]

/-! ### The engines of a client -/

/-- An engine as it is added to the snapshot. -/
def EngineReport.item (deviceKey : Text) (e : EngineReport) : EngineItem :=
  ⟨engineKey deviceKey e.name, e.timeNs, e.capacity, true⟩

theorem published_eq (c : LsmDrmClient) : published c =
    ((c.engines.filter (·.timeAvailable)).map GpuEngine.report).map (EngineReport.item c.deviceKey.text) := by
  rw [List.map_map]
  rfl

theorem mem_published {c : LsmDrmClient} {item : EngineItem} :
    item ∈ published c ↔ ∃ e ∈ (clientReport c).engines, EngineReport.item c.deviceKey.text e = item := by
  rw [published_eq, List.mem_map]
  exact exists_congr fun e => and_congr_left' List.mem_toFinset.symm

theorem totalOf_published {c : LsmDrmClient} (h : Stands c (clientReport c)) (key : Text) :
    totalOf EngineItem.name EngineItem.timeNs (published c) key = ∑ e ∈ (clientReport c).under key, e.timeNs := by
  have hunder : (clientReport c).under key = (((c.engines.filter (·.timeAvailable)).map GpuEngine.report).filter
      fun e => engineKey c.deviceKey.text e.name = key).toFinset := by
    ext e
    rw [List.mem_toFinset, List.mem_filter, decide_eq_true_iff, ClientReport.under, Finset.mem_filter, clientReport,
      List.mem_toFinset]
  rw [hunder, List.sum_toFinset _ (h.engines.filter _), totalOf, membersOf, published_eq, List.filter_map, List.map_map]
  rfl

end

/-! ### The engines of all clients -/

theorem nul_notMem_engineKey {deviceKey name : Text} (hdevice : 0 ∉ deviceKey) (hname : 0 ∉ name) :
    0 ∉ engineKey deviceKey name := by
  rw [engineKey, List.mem_append, List.mem_cons, not_or, not_or]
  exact ⟨fun h => hdevice (List.mem_of_mem_take h), by decide, fun h => hname (List.mem_of_mem_take h)⟩

theorem length_engineKey (deviceKey name : Text) : (engineKey deviceKey name).length ≤ 256 - 1 := by
  have hdevice := List.length_take_le 120 deviceKey
  have hname := List.length_take_le 120 name
  rw [engineKey, List.length_append, List.length_cons]
  omega

section
variable {lib : Library} {cs : List LsmDrmClient} {rows : List GpuEngine}

theorem labelled_published (cs : List LsmDrmClient) : (engineRules lib).Labelled ((firsts cs).flatMap published) := by
  intro item hitem
  obtain ⟨c, -, hc⟩ := List.mem_flatMap.mp hitem
  obtain ⟨row, -, rfl⟩ := List.mem_map.mp hc
  exact Chars.ofText_text (nul_notMem_engineKey c.deviceKey.nulFree row.name.nulFree) (length_engineKey _ _)

theorem accepts_published (cs : List LsmDrmClient) :
    ∀ item ∈ (firsts cs).flatMap published, (engineRules lib).refuses item = false := by
  intro item hitem
  obtain ⟨c, -, hc⟩ := List.mem_flatMap.mp hitem
  obtain ⟨row, -, rfl⟩ := List.mem_map.mp hc
  exact decide_eq_false (List.append_ne_nil_of_right_ne_nil _ (List.cons_ne_nil _ _))

/-- An engine that is published is an engine of a client. -/
theorem mem_all_published (hconsistent : Consistent (cs.map clientReport).toFinset) {item : EngineItem} :
    item ∈ (firsts cs).flatMap published ↔
      ∃ c ∈ (cs.map clientReport).toFinset, ∃ e ∈ c.engines, EngineReport.item c.deviceKey e = item := by
  rw [List.mem_flatMap, ← toFinset_firsts hconsistent]
  constructor
  · rintro ⟨c, hc, hitem⟩
    exact ⟨clientReport c, List.mem_toFinset.mpr (List.mem_map_of_mem hc), mem_published.mp hitem⟩
  · rintro ⟨report, hreport, hitem⟩
    obtain ⟨c, hc, rfl⟩ := List.mem_map.mp (List.mem_toFinset.mp hreport)
    exact ⟨c, hc, mem_published.mpr hitem⟩

theorem mem_engineKeys (hconsistent : Consistent (cs.map clientReport).toFinset) {key : Text} :
    key ∈ engineKeys (cs.map clientReport).toFinset ↔ ∃ item ∈ (firsts cs).flatMap published, item.name = key := by
  rw [engineKeys, Finset.mem_biUnion]
  constructor
  · rintro ⟨c, hc, hkey⟩
    obtain ⟨e, he, rfl⟩ := Finset.mem_image.mp hkey
    exact ⟨_, (mem_all_published hconsistent).mpr ⟨c, hc, e, he, rfl⟩, rfl⟩
  · rintro ⟨item, hitem, rfl⟩
    obtain ⟨c, hc, e, he, rfl⟩ := (mem_all_published hconsistent).mp hitem
    exact ⟨c, hc, Finset.mem_image_of_mem _ he⟩

theorem engineRows_isSome (hconsistent : Consistent (cs.map clientReport).toFinset) :
    (engineRows lib cs).isSome = true ↔ (engineKeys (cs.map clientReport).toFinset).card ≤ maxEngines := by
  have hkeys : (((firsts cs).flatMap published).map EngineItem.name).toFinset = engineKeys (cs.map clientReport).toFinset := by
    ext key
    rw [mem_engineKeys hconsistent, List.mem_toFinset, List.mem_map]
  have hlength : (keysOf (engineRules lib).key ((firsts cs).flatMap published)).length =
      (engineKeys (cs.map clientReport).toFinset).card := hkeys ▸ length_keysOf EngineItem.name _
  rw [engineRows, Tally.Rules.addAll_isSome_iff (labelled_published cs), hlength, and_iff_right (accepts_published cs)]

theorem rows_tallied (hrows : engineRows lib cs = some rows) :
    (engineRules lib).Tallied ((firsts cs).flatMap published) rows :=
  Tally.Rules.addAll_tallied (labelled_published cs) hrows

/-- The keys of the rows are those of the clients' engines. -/
theorem mem_rows (hconsistent : Consistent (cs.map clientReport).toFinset) (hrows : engineRows lib cs = some rows) {key : Text} :
    key ∈ rows.map (fun row => row.name.text) ↔ key ∈ engineKeys (cs.map clientReport).toFinset := by
  rw [mem_engineKeys hconsistent, show rows.map (fun row => row.name.text) = _ from (rows_tallied hrows).labels, mem_keysOf]
  rfl

theorem report_bounds (hstands : ∀ c ∈ cs, Stands c (clientReport c)) {c : ClientReport}
    (hc : c ∈ (cs.map clientReport).toFinset) {e : EngineReport} (he : e ∈ c.engines) :
    e.timeNs ≤ uint64Max ∧ 1 ≤ e.capacity := by
  obtain ⟨client, hclient, rfl⟩ := List.mem_map.mp (List.mem_toFinset.mp hc)
  obtain ⟨row, hrow, rfl⟩ := List.mem_map.mp (List.mem_toFinset.mp he)
  have hmem := (List.mem_filter.mp hrow).1
  exact ⟨(hstands client hclient).times row hmem, (hstands client hclient).capacities row hmem⟩

/-- **A row has the time and the capacity of its engine over all clients.** -/
theorem rows_totals (hstands : ∀ c ∈ cs, Stands c (clientReport c)) (hconsistent : Consistent (cs.map clientReport).toFinset)
    (hrows : engineRows lib cs = some rows) {row : GpuEngine} (hrow : row ∈ rows) :
    row.timeNs = min (engineTime (cs.map clientReport).toFinset row.name.text) uint64Max ∧
      row.capacity = engineCapacity (cs.map clientReport).toFinset row.name.text := by
  have htallied := rows_tallied hrows
  have hitem : ∀ item ∈ (firsts cs).flatMap published, ∃ c ∈ (cs.map clientReport).toFinset, ∃ e ∈ c.engines,
      EngineReport.item c.deviceKey e = item := fun item h => (mem_all_published hconsistent).mp h
  constructor
  · rw [rows_timeNs htallied ?_ ?_ hrow, engineTime, sum_clients hconsistent, totalOf_flatMap]
    · congr 2
      refine List.map_congr_left fun c hc => ?_
      exact totalOf_published (hstands c (Tally.mem_of_mem_firstsOf hc)) _
    · intro item h
      obtain ⟨c, hc, e, he, rfl⟩ := hitem item h
      exact (report_bounds hstands hc he).1
    · intro item h hfalse
      obtain ⟨c, hc, e, he, rfl⟩ := hitem item h
      cases hfalse
  · refine eq_of_forall_ge_iff fun n => (rows_capacity htallied hrow n).trans ?_
    rw [engineCapacity, Finset.sup_le_iff]
    constructor
    · rintro ⟨-, hall⟩ c hc
      refine Finset.sup_le_iff.mpr fun e he => ?_
      obtain ⟨hengine, hkey⟩ := Finset.mem_filter.mp he
      exact hall _ ((mem_all_published hconsistent).mpr ⟨c, hc, e, hengine, rfl⟩) hkey
    · intro hall
      have hle : ∀ item ∈ (firsts cs).flatMap published, item.name = row.name.text → 1 ≤ item.capacity ∧ item.capacity ≤ n := by
        intro item h hname
        obtain ⟨c, hc, e, he, rfl⟩ := hitem item h
        exact ⟨(report_bounds hstands hc he).2, Finset.sup_le_iff.mp (hall c hc) e (Finset.mem_filter.mpr ⟨he, hname⟩)⟩
      obtain ⟨item, h, hname⟩ := (mem_engineKeys hconsistent).mp
        ((mem_rows hconsistent hrows).mp (List.mem_map_of_mem hrow))
      exact ⟨(hle item h hname).1.trans (hle item h hname).2, fun item h hname => (hle item h hname).2⟩

end

end SystemMonitor.Process.Drm
