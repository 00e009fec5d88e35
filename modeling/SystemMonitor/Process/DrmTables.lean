import Mathlib.Algebra.BigOperators.Group.Finset.Basic
import SystemMonitor.Process.DrmReports

/-! The tables of engines and regions.

Both are bounded tables with a row for every name, and the engines of a file and those of
all clients are added by the same rules. A reader that goes on after a row that does not fit
is complete exactly when all rows do (`complete_read`), and then the rows of a file are its
engines and regions as they are reported (`engines_read`, `regions_read`). -/
namespace SystemMonitor.Process.Drm
open Lib

/-! ### Rules -/

structure EngineItem where
  name : Text
  timeNs : Nat
  capacity : Nat
  haveTime : Bool
  deriving DecidableEq

structure RegionItem where
  name : Text
  bytes : Nat
  resident : Bool
  deriving DecidableEq

section
variable (lib : Library)

/-- What is merged into a row. -/
theorem mergeEngine_fields (timeNs capacity : Nat) (haveTime : Bool) (row : GpuEngine) :
    (mergeEngine lib timeNs capacity haveTime row).name = row.name ∧
      (mergeEngine lib timeNs capacity haveTime row).timeNs =
        (if haveTime then lib.arithmetic.u64AddSaturating row.timeNs timeNs else row.timeNs) ∧
      (mergeEngine lib timeNs capacity haveTime row).capacity = max row.capacity capacity ∧
      (mergeEngine lib timeNs capacity haveTime row).timeAvailable = (row.timeAvailable || haveTime) := by
  cases haveTime with
  | false =>
    by_cases hless : row.capacity < capacity
    · simp [mergeEngine, hless, Nat.max_eq_right hless.le]
    · simp [mergeEngine, hless, Nat.max_eq_left (Nat.le_of_not_lt hless)]
  | true =>
    by_cases hless : row.capacity < capacity
    · simp [mergeEngine, hless, Nat.max_eq_right hless.le]
    · simp [mergeEngine, hless, Nat.max_eq_left (Nat.le_of_not_lt hless)]

def engineRules : Tally.Rules EngineItem GpuEngine Text where
  refuses item := decide (item.name = [])
  key := EngineItem.name
  label row := row.name.text
  fresh item := newEngine item.name item.timeNs item.capacity item.haveTime
  merge row item := mergeEngine lib item.timeNs item.capacity item.haveTime row
  label_merge row item := 
    congrArg Chars.text (mergeEngine_fields lib item.timeNs item.capacity item.haveTime row).1

def regionRules : Tally.Rules RegionItem LsmDrmMemoryRegion Text where
  refuses item := decide (item.name = [])
  key := RegionItem.name
  label row := row.name.text
  fresh item := {name := .ofText item.name, bytes := item.bytes, residentPreferred := item.resident}
  merge row item := mergeRegion item.bytes item.resident row
  label_merge _ _ := rfl

theorem addEngine_eq (rows : List GpuEngine) (item : EngineItem) :
    addEngine lib rows item.name item.timeNs item.capacity item.haveTime = (engineRules lib).add maxEngines rows item := by
  rw [addEngine, Tally.Rules.add]
  by_cases hname : item.name = []
  · simp [engineRules, hname]
  · simp [engineRules, hname]

theorem setMemoryRegion_eq (rows : List LsmDrmMemoryRegion) (item : RegionItem) :
    setMemoryRegion rows item.name item.bytes item.resident = regionRules.add maxRegions rows item := by
  rw [setMemoryRegion, Tally.Rules.add]
  by_cases hname : item.name = []
  · simp [regionRules, hname]
  · simp [regionRules, hname]

end

/-! ### The tables of a file -/

def Item.asEngine : Item → Option EngineItem
  | .capacity name count => some ⟨name, 0, count, false⟩
  | .time name timeNs => some ⟨name, timeNs, 1, true⟩
  | _ => none

def Item.asRegion : Item → Option RegionItem
  | .region resident name bytes => some ⟨name, bytes, resident⟩
  | _ => none

section
variable (lib : Library) (items : List Item)

def engineTable : Option (List GpuEngine) := (engineRules lib).addAll maxEngines [] (items.filterMap Item.asEngine)

def regionTable : Option (List LsmDrmMemoryRegion) := regionRules.addAll maxRegions [] (items.filterMap Item.asRegion)

/-- What the reader holds: the tables, or a clear flag. -/
structure Holds (s : ReadState) : Prop where
  complete : s.complete = true ↔ (engineTable lib items).isSome = true ∧ (regionTable items).isSome = true
  engines : ∀ rows, engineTable lib items = some rows → s.client.engines = rows
  regions : ∀ rows, regionTable items = some rows → s.client.regions = rows

theorem engineTable_concat {item : Item} {e : EngineItem} (h : item.asEngine = some e) :
    engineTable lib (items ++ [item]) = (engineRules lib).addAll maxEngines [] (items.filterMap Item.asEngine ++ [e]) := by
  rw [engineTable, List.filterMap_append, List.filterMap_cons_some h, List.filterMap_nil]

theorem engineTable_other {item : Item} (h : item.asEngine = none) :
    engineTable lib (items ++ [item]) = engineTable lib items := by
  rw [engineTable, List.filterMap_append, List.filterMap_cons_none h, List.filterMap_nil, List.append_nil]
  rfl

theorem regionTable_concat {item : Item} {r : RegionItem} (h : item.asRegion = some r) :
    regionTable (items ++ [item]) = regionRules.addAll maxRegions [] (items.filterMap Item.asRegion ++ [r]) := by
  rw [regionTable, List.filterMap_append, List.filterMap_cons_some h, List.filterMap_nil]

theorem regionTable_other {item : Item} (h : item.asRegion = none) : regionTable (items ++ [item]) = regionTable items := by
  rw [regionTable, List.filterMap_append, List.filterMap_cons_none h, List.filterMap_nil, List.append_nil]
  rfl

variable {lib items} {s : ReadState}

/-- The tables and the flag are all that matters. -/
theorem Holds.congr {s' : ReadState} (h : Holds lib items s) (hcomplete : s'.complete = s.complete)
    (hengines : s'.client.engines = s.client.engines) (hregions : s'.client.regions = s.client.regions) :
    Holds lib items s' :=
  ⟨hcomplete ▸ h.complete, hengines ▸ h.engines, hregions ▸ h.regions⟩

/-- An item that is not in a table. -/
theorem Holds.other (h : Holds lib items s) {item : Item} (he : item.asEngine = none) (hr : item.asRegion = none) :
    Holds lib (items ++ [item]) s := by
  have hengines := engineTable_other lib items he
  have hregions := regionTable_other items hr
  exact ⟨by rw [hengines, hregions]; exact h.complete, by rw [hengines]; exact h.engines,
    by rw [hregions]; exact h.regions⟩

theorem Holds.engine (h : Holds lib items s) {item : Item} {e : EngineItem} (he : item.asEngine = some e)
    (hr : item.asRegion = none) : Holds lib (items ++ [item]) (s.addEngine lib e.name e.timeNs e.capacity e.haveTime) := by
  have hengines := engineTable_concat lib items he
  have hregions := regionTable_other items hr
  rw [ReadState.addEngine, addEngine_eq]
  rcases Tally.Rules.add_cases h.engines e with ⟨changed, hadd, htable, hsome⟩ | ⟨hadd, hnone⟩
  · rw [hadd]
    refine ⟨?_, hengines ▸ htable, hregions ▸ h.regions⟩
    rw [hengines, hsome, hregions]
    exact h.complete
  · rw [hadd]
    rw [hnone] at hengines
    refine ⟨iff_of_false Bool.false_ne_true fun hboth => ?_, fun rows hrows => ?_, hregions ▸ h.regions⟩
    · rw [hengines] at hboth
      exact absurd hboth.1 Bool.false_ne_true
    · rw [hengines] at hrows
      cases hrows

theorem Holds.region (h : Holds lib items s) {item : Item} {r : RegionItem} (hr : item.asRegion = some r)
    (he : item.asEngine = none) : Holds lib (items ++ [item]) (s.setMemoryRegion r.name r.bytes r.resident) := by
  have hregions := regionTable_concat items hr
  have hengines := engineTable_other lib items he
  rw [ReadState.setMemoryRegion, setMemoryRegion_eq]
  rcases Tally.Rules.add_cases h.regions r with ⟨changed, hadd, htable, hsome⟩ | ⟨hadd, hnone⟩
  · rw [hadd]
    refine ⟨?_, hengines ▸ h.engines, hregions ▸ htable⟩
    rw [hregions, hsome, hengines]
    exact h.complete
  · rw [hadd]
    rw [hnone] at hregions
    refine ⟨iff_of_false Bool.false_ne_true fun hboth => ?_, hengines ▸ h.engines, fun rows hrows => ?_⟩
    · rw [hregions] at hboth
      exact absurd hboth.2 Bool.false_ne_true
    · rw [hregions] at hrows
      cases hrows

/-- An item more. -/
theorem Holds.take (h : Holds lib items s) (item : Item) : Holds lib (items ++ [item]) (s.take lib item) := by
  cases item with
  | minor value =>
    rw [ReadState.take]
    split
    · exact (h.other rfl rfl).congr rfl rfl rfl
    · exact h.other rfl rfl
  | capacity name count => exact @Holds.engine lib items s h (.capacity name count) ⟨name, 0, count, false⟩ rfl rfl
  | time name timeNs =>
    have hadd := @Holds.engine lib items s h (.time name timeNs) ⟨name, timeNs, 1, true⟩ rfl rfl
    exact hadd.congr rfl rfl rfl
  | region resident name bytes =>
    have hadd := @Holds.region lib items s h (.region resident name bytes) ⟨name, bytes, resident⟩ rfl rfl
    exact hadd.congr rfl rfl rfl
  | _ => exact (h.other rfl rfl).congr rfl rfl rfl

theorem holds_read (items : List Item) : Holds lib items (items.foldl (ReadState.take lib) {}) := by
  induction items using List.reverseRecOn with
  | nil => exact ⟨iff_of_true rfl ⟨rfl, rfl⟩, fun rows hrows => Option.some.inj hrows, fun rows hrows => Option.some.inj hrows⟩
  | append_singleton items item ih =>
    rw [List.foldl_append]
    exact ih.take item

end

/-! ### Room -/

theorem length_keysOf {α κ : Type} [DecidableEq κ] (key : α → κ) (l : List α) :
    (keysOf key l).length = (l.map key).toFinset.card := by
  rw [← List.toFinset_card_of_nodup (nodup_keysOf l)]
  congr 1
  ext k
  rw [List.mem_toFinset, List.mem_toFinset, mem_keysOf, List.mem_map]

theorem map_name_engines (items : List Item) :
    (items.filterMap Item.asEngine).map EngineItem.name = items.filterMap Item.engineName := by
  rw [List.map_filterMap]
  refine congrArg (List.filterMap · items) (funext fun item => ?_)
  cases item <;> rfl

theorem map_name_regions (items : List Item) :
    (items.filterMap Item.asRegion).map RegionItem.name = items.filterMap Item.regionName := by
  rw [List.map_filterMap]
  refine congrArg (List.filterMap · items) (funext fun item => ?_)
  cases item <;> rfl

theorem asEngine_eq_some {item : Item} {e : EngineItem} (h : item.asEngine = some e) :
    item = .time e.name e.timeNs ∧ e.capacity = 1 ∧ e.haveTime = true ∨
      item = .capacity e.name e.capacity ∧ e.timeNs = 0 ∧ e.haveTime = false := by
  cases item with
  | time name timeNs =>
    obtain rfl := Option.some.inj h
    exact .inl ⟨rfl, rfl, rfl⟩
  | capacity name count =>
    obtain rfl := Option.some.inj h
    exact .inr ⟨rfl, rfl, rfl⟩
  | _ => cases h

theorem asRegion_eq_some {item : Item} {r : RegionItem} (h : item.asRegion = some r) :
    item = .region r.resident r.name r.bytes := by
  cases item with
  | region resident name bytes =>
    obtain rfl := Option.some.inj h
    rfl
  | _ => cases h

section
variable {lib : Library} {items : List Item}

theorem Described.engine_labelled (h : Described items) : (engineRules lib).Labelled (items.filterMap Item.asEngine) := by
  intro e he
  obtain ⟨item, hitem, hsome⟩ := List.mem_filterMap.mp he
  rcases asEngine_eq_some hsome with ⟨rfl, -, -⟩ | ⟨rfl, -, -⟩
  · exact Chars.ofText_text (h.sound _ hitem).1 (h.fits _ hitem)
  · exact Chars.ofText_text (h.sound _ hitem).1 (h.fits _ hitem)

theorem Described.region_labelled (h : Described items) : regionRules.Labelled (items.filterMap Item.asRegion) := by
  intro r hr
  obtain ⟨item, hitem, hsome⟩ := List.mem_filterMap.mp hr
  obtain rfl := asRegion_eq_some hsome
  exact Chars.ofText_text (h.sound _ hitem) (h.fits _ hitem)

theorem refused_engines (items : List Item) : (∀ e ∈ items.filterMap Item.asEngine, (engineRules lib).refuses e = false) ↔
    [] ∉ items.filterMap Item.engineName := by
  rw [← map_name_engines]
  simp [engineRules]

theorem refused_regions (items : List Item) : (∀ r ∈ items.filterMap Item.asRegion, regionRules.refuses r = false) ↔
    [] ∉ items.filterMap Item.regionName := by
  rw [← map_name_regions]
  simp [regionRules]

/-- The tables have the room exactly when nothing is refused and every name has a row. -/
theorem tables_isSome (h : Described items) :
    (engineTable lib items).isSome = true ∧ (regionTable items).isSome = true ↔ Roomy items := by
  have hengines : (keysOf (engineRules lib).key (items.filterMap Item.asEngine)).length =
      (items.filterMap Item.engineName).toFinset.card := map_name_engines items ▸ length_keysOf EngineItem.name _
  have hregions : (keysOf regionRules.key (items.filterMap Item.asRegion)).length =
      (items.filterMap Item.regionName).toFinset.card := map_name_regions items ▸ length_keysOf RegionItem.name _
  rw [engineTable, regionTable, Tally.Rules.addAll_isSome_iff h.engine_labelled,
    Tally.Rules.addAll_isSome_iff h.region_labelled, refused_engines, refused_regions, hengines, hregions, Roomy]

theorem complete_read (h : Described items) :
    (items.foldl (ReadState.take lib) {}).complete = true ↔ Roomy items :=
  (holds_read items).complete.trans (tables_isSome h)

/-! ### The rows of a file -/

def GpuEngine.report (row : GpuEngine) : EngineReport := ⟨row.name.text, row.timeNs, row.capacity⟩

def LsmDrmMemoryRegion.report (region : LsmDrmMemoryRegion) : RegionReport := ⟨region.name.text, region.bytes⟩

theorem mem_capacity {engine : Text} {item : Item} {count : Nat} (h : item.asCapacity engine = some count) :
    item = .capacity engine count := by
  cases item with
  | capacity name found =>
    rw [Item.asCapacity] at h
    split at h
    · rename_i hname
      rw [hname, Option.some.inj h]
    · cases h
  | _ => cases h

theorem mem_size {kind : Bool} {area : Text} {item : Item} {bytes : Nat} (h : item.asSize kind area = some bytes) :
    item = .region kind area bytes := by
  cases item with
  | region resident name found =>
    rw [Item.asSize] at h
    split at h
    · rename_i hname
      rw [hname.1, hname.2, Option.some.inj h]
    · cases h
  | _ => cases h

theorem capacityOf_eq (h : Described items) {engine : Text} {count : Nat} (hitem : Item.capacity engine count ∈ items) :
    capacityOf items engine = count := by
  have hsome : Item.asCapacity engine (.capacity engine count) = some count := if_pos rfl
  rw [capacityOf, (h.single_capacity engine).findSome?_eq_some_iff.mpr ⟨_, hitem, hsome⟩]
  rfl

/-- A capacity is the greatest of those an engine is added with, and no less than one. -/
theorem capacityOf_le_iff (h : Described items) (engine : Text) (n : Nat) : capacityOf items engine ≤ n ↔
    1 ≤ n ∧ ∀ e ∈ items.filterMap Item.asEngine, e.name = engine → e.capacity ≤ n := by
  constructor
  · intro hle
    have hpos : 1 ≤ capacityOf items engine := by
      rw [capacityOf]
      cases hfound : items.findSome? (Item.asCapacity engine) with
      | none => exact le_rfl
      | some count =>
        obtain ⟨item, hitem, hsome⟩ := List.exists_of_findSome?_eq_some hfound
        obtain rfl := mem_capacity hsome
        exact (h.sound _ hitem).2
    refine ⟨hpos.trans hle, fun e he hname => ?_⟩
    obtain ⟨item, hitem, hsome⟩ := List.mem_filterMap.mp he
    rcases asEngine_eq_some hsome with ⟨-, hone, -⟩ | ⟨rfl, -, -⟩
    · exact hone ▸ hpos.trans hle
    · subst hname
      exact capacityOf_eq h hitem ▸ hle
  · intro ⟨hpos, hall⟩
    rw [capacityOf]
    cases hfound : items.findSome? (Item.asCapacity engine) with
    | none => exact hpos
    | some count =>
      obtain ⟨item, hitem, hsome⟩ := List.exists_of_findSome?_eq_some hfound
      obtain rfl := mem_capacity hsome
      exact hall ⟨engine, 0, count, false⟩ (List.mem_filterMap.mpr ⟨_, hitem, rfl⟩) rfl

/-- The time of an engine is what its items add up to. -/
theorem totalOf_time (h : Described items) {engine : Text} {timeNs : Nat} (hitem : Item.time engine timeNs ∈ items) :
    totalOf EngineItem.name EngineItem.timeNs (items.filterMap Item.asEngine) engine = timeNs := by
  have hinjective : ∀ a a' : Item, ∀ e, e ∈ a.asEngine → e ∈ a'.asEngine → a = a' := by
    intro a a' e ha ha'
    rcases asEngine_eq_some ha with ⟨rfl, -, htime⟩ | ⟨rfl, -, htime⟩ <;>
      rcases asEngine_eq_some ha' with ⟨rfl, -, htime'⟩ | ⟨rfl, -, htime'⟩
    · rfl
    · exact absurd (htime.symm.trans htime') (by decide)
    · exact absurd (htime.symm.trans htime') (by decide)
    · rfl
  have hnodup : (membersOf EngineItem.name (items.filterMap Item.asEngine) engine).Nodup :=
    (h.nodup.filterMap hinjective).filter _
  have hmem : (⟨engine, timeNs, 1, true⟩ : EngineItem) ∈ membersOf EngineItem.name (items.filterMap Item.asEngine) engine :=
    List.mem_filter.mpr ⟨List.mem_filterMap.mpr ⟨_, hitem, rfl⟩, decide_eq_true rfl⟩
  rw [totalOf, ← List.sum_toFinset _ hnodup]
  refine Finset.sum_eq_single_of_mem _ (List.mem_toFinset.mpr hmem) fun e he hne => ?_
  obtain ⟨hmember, hname⟩ := List.mem_filter.mp (List.mem_toFinset.mp he)
  obtain ⟨item, hother, hsome⟩ := List.mem_filterMap.mp hmember
  rcases asEngine_eq_some hsome with ⟨rfl, hone, htrue⟩ | ⟨-, hzero, -⟩
  · have hname := of_decide_eq_true hname
    have hsame := h.eq_of_key hother hitem (by rw [Item.key, Item.key, hname])
    refine absurd ?_ hne
    obtain ⟨name, time, capacity, flag⟩ := e
    cases hone
    cases htrue
    cases hsame
    rfl
  · exact hzero

theorem engine_timeNs_le (h : Described items) {e : EngineItem} (he : e ∈ items.filterMap Item.asEngine) :
    e.timeNs ≤ uint64Max := by
  obtain ⟨item, hitem, hsome⟩ := List.mem_filterMap.mp he
  rcases asEngine_eq_some hsome with ⟨rfl, -, -⟩ | ⟨-, hzero, -⟩
  · exact (h.sound _ hitem).2
  · exact hzero ▸ Nat.zero_le _

theorem engine_timeNs_eq_zero (items : List Item) :
    ∀ e ∈ items.filterMap Item.asEngine, e.haveTime = false → e.timeNs = 0 := by
  intro e he hflag
  obtain ⟨item, -, hsome⟩ := List.mem_filterMap.mp he
  rcases asEngine_eq_some hsome with ⟨-, -, htrue⟩ | ⟨-, hzero, -⟩
  · exact absurd (hflag.symm.trans htrue) (by decide)
  · exact hzero

section
variable {rows : List GpuEngine} {added : List EngineItem}

/-- What the rows of engines amount to, of a file or of all clients. -/
theorem rows_timeNs (htallied : (engineRules lib).Tallied added rows) (hle : ∀ e ∈ added, e.timeNs ≤ uint64Max)
    (hfalse : ∀ e ∈ added, e.haveTime = false → e.timeNs = 0) {row : GpuEngine} (hrow : row ∈ rows) :
    row.timeNs = min (totalOf EngineItem.name EngineItem.timeNs added row.name.text) uint64Max := by
  refine @Tally.Rules.Tallied.total _ _ _ _ _ _ _ htallied (fun row => row.timeNs) EngineItem.timeNs uint64Max ?_ ?_ row hrow
  · intro e he
    exact (Nat.min_eq_left (hle e he)).symm
  · intro row hrow e he
    refine (mergeEngine_fields lib e.timeNs e.capacity e.haveTime row).2.1.trans ?_
    cases htime : e.haveTime with
    | true => exact lib.arithmetic.addSaturating_eq row.timeNs e.timeNs
    | false =>
      rw [hfalse e he htime, Nat.add_zero, Nat.min_eq_left hrow]
      rfl

theorem rows_capacity (htallied : (engineRules lib).Tallied added rows) {row : GpuEngine} (hrow : row ∈ rows) (n : Nat) :
    row.capacity ≤ n ↔ 1 ≤ n ∧ ∀ e ∈ added, e.name = row.name.text → e.capacity ≤ n := by
  refine @Tally.Rules.Tallied.greatest _ _ _ _ _ _ _ htallied (fun row => row.capacity) EngineItem.capacity 1 ?_ ?_ row hrow n
  · intro e
    show (if 0 < e.capacity then e.capacity else 1) = max 1 e.capacity
    split <;> omega
  · intro row e
    exact (mergeEngine_fields lib e.timeNs e.capacity e.haveTime row).2.2.1

theorem rows_timeAvailable (htallied : (engineRules lib).Tallied added rows) {row : GpuEngine} (hrow : row ∈ rows) :
    row.timeAvailable = true ↔ ∃ e ∈ added, e.name = row.name.text ∧ e.haveTime = true :=
  @Tally.Rules.Tallied.flag _ _ _ _ _ _ _ htallied (fun row => row.timeAvailable) EngineItem.haveTime (fun _ => rfl)
    (fun row e => (mergeEngine_fields lib e.timeNs e.capacity e.haveTime row).2.2.2) row hrow

theorem row_report (h : Described items) (hrows : engineTable lib items = some rows) {row : GpuEngine} (hrow : row ∈ rows)
    {timeNs : Nat} (hitem : Item.time row.name.text timeNs ∈ items) :
    row.report = ⟨row.name.text, timeNs, capacityOf items row.name.text⟩ := by
  have htallied := Tally.Rules.addAll_tallied h.engine_labelled hrows
  have htime : row.timeNs = timeNs := by
    rw [rows_timeNs htallied (fun e he => engine_timeNs_le h he) (engine_timeNs_eq_zero items) hrow, totalOf_time h hitem,
      Nat.min_eq_left (h.sound _ hitem).2]
  have hcapacity : row.capacity = capacityOf items row.name.text :=
    eq_of_forall_ge_iff fun n => (rows_capacity htallied hrow n).trans (capacityOf_le_iff h _ n).symm
  rw [GpuEngine.report, htime, hcapacity]

/-- **The engines of a file that have a time are those that it reports.** -/
theorem engines_read (h : Described items) (hrows : engineTable lib items = some rows) :
    ((rows.filter (·.timeAvailable)).map GpuEngine.report).toFinset = (items.filterMap (engineReport items)).toFinset := by
  have htallied := Tally.Rules.addAll_tallied h.engine_labelled hrows
  ext report
  rw [List.mem_toFinset, List.mem_toFinset, List.mem_map, List.mem_filterMap]
  constructor
  · rintro ⟨row, hmem, rfl⟩
    obtain ⟨hrow, htimed⟩ := List.mem_filter.mp hmem
    obtain ⟨e, he, hname, htrue⟩ := (rows_timeAvailable htallied hrow).mp htimed
    obtain ⟨item, hitem, hsome⟩ := List.mem_filterMap.mp he
    rcases asEngine_eq_some hsome with ⟨rfl, -, -⟩ | ⟨-, -, hfalse⟩
    · rw [hname] at hitem
      exact ⟨_, hitem, congrArg some (row_report h hrows hrow hitem).symm⟩
    · exact absurd (htrue.symm.trans hfalse) (by decide)
  · rintro ⟨item, hitem, hreport⟩
    cases item with
    | time name timeNs =>
      obtain rfl := Option.some.inj hreport
      have hitems : (⟨name, timeNs, 1, true⟩ : EngineItem) ∈ items.filterMap Item.asEngine :=
        List.mem_filterMap.mpr ⟨_, hitem, rfl⟩
      have hlabel : name ∈ rows.map fun row => row.name.text := by
        rw [show (rows.map fun row => row.name.text) = _ from htallied.labels]
        exact mem_keysOf.mpr ⟨_, hitems, rfl⟩
      obtain ⟨row, hrow, rfl⟩ := List.mem_map.mp hlabel
      refine ⟨row, List.mem_filter.mpr ⟨hrow, ?_⟩, row_report h hrows hrow hitem⟩
      exact (rows_timeAvailable htallied hrow).mpr ⟨_, hitems, rfl, rfl⟩
    | _ => cases hreport

end

section
variable {rows : List LsmDrmMemoryRegion}

/-- The bytes of a row are those of an item of the kind that is preferred. -/
theorem region_item (h : Described items) (hrows : regionTable items = some rows) {row : LsmDrmMemoryRegion}
    (hrow : row ∈ rows) : Item.region row.residentPreferred row.name.text row.bytes ∈ items := by
  have htallied := Tally.Rules.addAll_tallied h.region_labelled hrows
  have hmem : ∀ r ∈ items.filterMap Item.asRegion, Item.region r.resident r.name r.bytes ∈ items := by
    intro r hr
    obtain ⟨item, hitem, hsome⟩ := List.mem_filterMap.mp hr
    exact asRegion_eq_some hsome ▸ hitem
  refine @Tally.Rules.Tallied.induct _ _ _ _ _ _ _ htallied
    (fun name row => Item.region row.residentPreferred name row.bytes ∈ items) hmem ?_ row hrow
  intro row r hr hitem
  show Item.region (row.residentPreferred || r.resident) r.name
    (if r.resident || !row.residentPreferred then r.bytes else row.bytes) ∈ items
  have hnew := hmem r hr
  cases hresident : r.resident with
  | true =>
    rw [hresident] at hnew
    rw [Bool.or_true]
    exact hnew
  | false =>
    rw [hresident] at hnew
    rw [Bool.or_false]
    cases hpreferred : row.residentPreferred with
    | true =>
      rw [hpreferred] at hitem
      exact hitem
    | false => exact hnew

theorem region_report (h : Described items) (hrows : regionTable items = some rows) {row : LsmDrmMemoryRegion}
    (hrow : row ∈ rows) : row.report = ⟨row.name.text, sizeOf items row.name.text⟩ := by
  have htallied := Tally.Rules.addAll_tallied h.region_labelled hrows
  have hitem := region_item h hrows hrow
  have hflag := @Tally.Rules.Tallied.flag _ _ _ _ _ _ _ htallied (fun row => row.residentPreferred) RegionItem.resident
    (fun _ => rfl) (fun _ _ => rfl) row hrow
  have hsize : ∀ kind bytes, Item.region kind row.name.text bytes ∈ items →
      items.findSome? (Item.asSize kind row.name.text) = some bytes := fun kind bytes hmem =>
    (h.single_size kind _).findSome?_eq_some_iff.mpr ⟨_, hmem, if_pos ⟨rfl, rfl⟩⟩
  rw [LsmDrmMemoryRegion.report, sizeOf]
  cases hpreferred : row.residentPreferred with
  | true =>
    rw [hpreferred] at hitem
    rw [hsize true row.bytes hitem]
    rfl
  | false =>
    rw [hpreferred] at hitem
    have hnone : items.findSome? (Item.asSize true row.name.text) = none := by
      rw [List.findSome?_eq_none_iff]
      intro item hother
      cases hsome : item.asSize true row.name.text with
      | none => rfl
      | some bytes =>
        obtain rfl := mem_size hsome
        have htrue := hflag.mpr ⟨⟨row.name.text, bytes, true⟩, List.mem_filterMap.mpr ⟨_, hother, rfl⟩, rfl, rfl⟩
        rw [hpreferred] at htrue
        cases htrue
    rw [hnone, hsize false row.bytes hitem]
    rfl

/-- **The regions of a file are those that it reports, resident where that is known.** -/
theorem regions_read (h : Described items) (hrows : regionTable items = some rows) :
    (rows.map LsmDrmMemoryRegion.report).toFinset = (items.filterMap (regionReport items)).toFinset := by
  have htallied := Tally.Rules.addAll_tallied h.region_labelled hrows
  ext report
  rw [List.mem_toFinset, List.mem_toFinset, List.mem_map, List.mem_filterMap]
  constructor
  · rintro ⟨row, hrow, rfl⟩
    exact ⟨_, region_item h hrows hrow, congrArg some (region_report h hrows hrow).symm⟩
  · rintro ⟨item, hitem, hreport⟩
    cases item with
    | region resident name bytes =>
      obtain rfl := Option.some.inj hreport
      have hlabel : name ∈ rows.map fun row => row.name.text := by
        rw [show (rows.map fun row => row.name.text) = _ from htallied.labels]
        exact mem_keysOf.mpr ⟨⟨name, bytes, resident⟩, List.mem_filterMap.mpr ⟨_, hitem, rfl⟩, rfl⟩
      obtain ⟨row, hrow, rfl⟩ := List.mem_map.mp hlabel
      exact ⟨row, hrow, region_report h hrows hrow⟩
    | _ => cases hreport

end

end

end SystemMonitor.Process.Drm
