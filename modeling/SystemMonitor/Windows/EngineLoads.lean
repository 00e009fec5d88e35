import Mathlib.Order.Bounds.Basic
import SystemMonitor.Lib.GroupBy
import SystemMonitor.Windows.EngineNames

/-! The table of engines is a naive grouping.

After any items the table holds each engine once with the sum of its items
(`addAll_tallied`), unless there are more engines than it has room for, and every lookup
ends (`Addressed.probe_ne_exhausted`). What an adapter shows is then the greatest of its
engines' loads, of each type and over all of them (`gpu_engines_grouped`). -/
namespace SystemMonitor.Windows.GpuEngines
open Lib OpenTable WideStrings

/-- What an item counts for, and how much. -/
abbrev Counted := EngineKey × ℚ

/-- The sum of an engine's items. -/
abbrev total (counted : List Counted) (key : EngineKey) : ℚ := totalOf Prod.fst Prod.snd counted key

/-- The engines in the order of their first items. -/
abbrev enginesOf (counted : List Counted) : List EngineKey := keysOf Prod.fst counted

/-! ### The table -/

def tallied (counted : List Counted) (key : EngineKey) : LsmWindowsGpuEngineSample :=
  { key with used := true, utilisation := total counted key }

/-- The table after some items. -/
structure Tallied (counted : List Counted) (e : Engines) : Prop where
  engines : e.engines = (enginesOf counted).map (tallied counted)
  addressed : Addressed lsmWindowsGpuEngineLookupSize gpuEngineLookupStart e.engineLookup (enginesOf counted)

theorem Tallied.keys {counted : List Counted} {e : Engines} (h : Tallied counted e) : e.keys = enginesOf counted := by
  rw [Engines.keys, h.engines, List.map_map]
  exact List.map_id _

theorem gpuEngineLookupStart_mod (key : EngineKey) :
    gpuEngineLookupStart key % lsmWindowsGpuEngineLookupSize = gpuEngineLookupStart key :=
  Nat.mod_mod _ _

theorem Tallied.lookup_eq {counted : List Counted} {e : Engines} (h : Tallied counted e) (key : EngineKey) :
    e.lookup key = probe lsmWindowsGpuEngineLookupSize e.engineLookup (isAt (enginesOf counted) key)
      lsmWindowsGpuEngineLookupSize (gpuEngineLookupStart key % lsmWindowsGpuEngineLookupSize) := by
  rw [Engines.lookup, h.keys, gpuEngineLookupStart_mod]

theorem Tallied.room {counted : List Counted} (hlimit : (enginesOf counted).length ≤ lsmWindowsGpuEngineLimit) :
    (enginesOf counted).length < lsmWindowsGpuEngineLookupSize :=
  Nat.lt_of_le_of_lt hlimit (by decide)

theorem Tallied.empty : Tallied [] .empty := ⟨rfl, .nil⟩

/-- An item of an engine that is in the table. -/
theorem Tallied.add_known {counted : List Counted} {e : Engines} (h : Tallied counted e) {key : EngineKey} (value : ℚ)
    (hknown : key ∈ enginesOf counted) : ∃ after, e.add key value = some after ∧ Tallied (counted ++ [(key, value)]) after := by
  obtain ⟨place, hplace⟩ := List.mem_iff_getElem?.mp hknown
  have hlookup : e.lookup key = .found place := (h.lookup_eq key).trans (h.addressed.probe_found hplace)
  have hkeys : enginesOf (counted ++ [(key, value)]) = enginesOf counted := by
    rw [enginesOf, keysOf_concat, if_pos hknown]
  refine ⟨_, by rw [Engines.add, hlookup], ?_, by rw [hkeys]; exact h.addressed⟩
  rw [hkeys, h.engines]
  refine List.ext_getElem? fun other => ?_
  rw [List.getElem?_modify, List.getElem?_map, List.getElem?_map]
  cases hother : (enginesOf counted)[other]? with
  | none => rfl
  | some k =>
    refine congrArg some ?_
    beta_reduce
    have htotal := totalOf_concat Prod.fst Prod.snd counted (key, value) k
    by_cases hsame : place = other
    · subst hsame
      rw [hplace, Option.some_inj] at hother
      subst hother
      rw [if_pos rfl] at htotal ⊢
      rw [tallied, tallied, total, total, htotal]
    · have hne : key ≠ k := by
        rintro rfl
        obtain ⟨hlt, -⟩ := List.getElem?_eq_some_iff.mp hplace
        exact hsame ((List.getElem?_inj hlt h.addressed.nodup).mp (hplace.trans hother.symm))
      rw [if_neg hne] at htotal
      rw [if_neg hsame, tallied, tallied, total, total, htotal]

/-- An item of a new engine, while there is room. -/
theorem Tallied.add_new {counted : List Counted} {e : Engines} (h : Tallied counted e) {key : EngineKey} (value : ℚ)
    (hnew : key ∉ enginesOf counted) (hlimit : (enginesOf counted).length < lsmWindowsGpuEngineLimit) :
    ∃ after, e.add key value = some after ∧ Tallied (counted ++ [(key, value)]) after := by
  obtain ⟨slot, hslot, haddressed⟩ := h.addressed.probe_free hnew (Tallied.room hlimit.le)
  have hlookup : e.lookup key = .free slot := (h.lookup_eq key).trans hslot
  have hkeys : enginesOf (counted ++ [(key, value)]) = enginesOf counted ++ [key] := by
    rw [enginesOf, keysOf_concat, if_neg hnew]
  have hlength : e.engines.length = (enginesOf counted).length := by
    rw [h.engines, List.length_map]
  refine ⟨_, by rw [Engines.add, hlookup]; exact if_neg (by omega), ?_, ?_⟩
  · rw [hkeys, h.engines, List.map_append]
    refine congrArg₂ _ (List.map_congr_left fun k hk => ?_) ?_
    · have hne : key ≠ k := by
        rintro rfl
        exact hnew hk
      have htotal := totalOf_concat Prod.fst Prod.snd counted (key, value) k
      rw [if_neg hne] at htotal
      rw [tallied, tallied, total, total, htotal]
    · have htotal := totalOf_concat Prod.fst Prod.snd counted (key, value) key
      rw [if_pos rfl, totalOf_new Prod.snd hnew] at htotal
      rw [List.map_singleton, tallied, total, htotal]
  · dsimp only
    rw [hkeys, hlength]
    exact haddressed

/-- One engine more than there is room for. -/
theorem Tallied.add_full {counted : List Counted} {e : Engines} (h : Tallied counted e) {key : EngineKey} (value : ℚ)
    (hnew : key ∉ enginesOf counted) (hfull : (enginesOf counted).length = lsmWindowsGpuEngineLimit) :
    e.add key value = none := by
  obtain ⟨slot, hslot, -⟩ := h.addressed.probe_free hnew (Tallied.room hfull.le)
  have hlookup : e.lookup key = .free slot := (h.lookup_eq key).trans hslot
  have hlength : e.engines.length = (enginesOf counted).length := by
    rw [h.engines, List.length_map]
  rw [Engines.add, hlookup]
  exact if_pos (by omega)

def addAll : List Counted → Engines → Option Engines
  | [], e => some e
  | (key, value) :: rest, e => (e.add key value).bind (addAll rest)

/-- **The table is a tally.** After any items more it holds each engine once, with the sum of its items, or there is no
room for them all. -/
theorem addAll_tallied {counted : List Counted} {e : Engines} (h : Tallied counted e)
    (hlimit : (enginesOf counted).length ≤ lsmWindowsGpuEngineLimit) (more : List Counted) :
    if (enginesOf (counted ++ more)).length ≤ lsmWindowsGpuEngineLimit then
      ∃ after, addAll more e = some after ∧ Tallied (counted ++ more) after
    else addAll more e = none := by
  induction more generalizing counted e with
  | nil =>
    rw [List.append_nil, if_pos hlimit]
    exact ⟨e, rfl, h⟩
  | cons item more ih =>
    obtain ⟨key, value⟩ := item
    have hsplit : counted ++ (key, value) :: more = (counted ++ [(key, value)]) ++ more := by
      rw [List.append_assoc, List.singleton_append]
    rw [hsplit, addAll]
    have hcontinue : (∃ after, e.add key value = some after ∧ Tallied (counted ++ [(key, value)]) after) →
        (enginesOf (counted ++ [(key, value)])).length ≤ lsmWindowsGpuEngineLimit →
        if (enginesOf ((counted ++ [(key, value)]) ++ more)).length ≤ lsmWindowsGpuEngineLimit then
          ∃ after, (e.add key value).bind (addAll more) = some after ∧ Tallied ((counted ++ [(key, value)]) ++ more) after
        else (e.add key value).bind (addAll more) = none := by
      rintro ⟨after, hafter, htallied⟩ hroom
      rw [hafter]
      exact ih htallied hroom
    by_cases hknown : key ∈ enginesOf counted
    · refine hcontinue (h.add_known value hknown) ?_
      rw [enginesOf, keysOf_concat, if_pos hknown]
      exact hlimit
    · have hkeys : (enginesOf (counted ++ [(key, value)])).length = (enginesOf counted).length + 1 := by
        rw [enginesOf, keysOf_concat, if_neg hknown, List.length_append, List.length_singleton]
      rcases hlimit.lt_or_eq with hroom | hfull
      · exact hcontinue (h.add_new value hknown hroom) (by omega)
      · have hmore : (enginesOf (counted ++ [(key, value)])).length ≤ (enginesOf ((counted ++ [(key, value)]) ++ more)).length :=
          length_keysOf_append _ more
        rw [if_neg (by omega), h.add_full value hknown hfull]
        rfl

/-- The items that count, in order. -/
theorem addItems_eq (gpuLuids : List (Option Luid)) (gpuCount : Nat) (items : List PdhItem) (e : Engines) :
    addItems gpuLuids gpuCount items e =
      addAll (items.filterMap fun item => (countedEngine gpuLuids gpuCount item).map (·, item.doubleValue)) e := by
  induction items generalizing e with
  | nil => rfl
  | cons item rest ih =>
    rw [addItems, List.filterMap_cons]
    cases countedEngine gpuLuids gpuCount item with
    | none => exact ih e
    | some key =>
      rw [Option.map_some]
      dsimp only
      rw [addAll]
      exact congrArg _ (funext ih)

/-! ### What an adapter shows -/

/-- The greatest of some loads, if there are any. -/
def Tops (loads : Set ℚ) (metric : EngineMetric) : Prop :=
  metric = ⟨false, 0⟩ ∧ loads = ∅ ∨ metric.available = true ∧ IsGreatest loads metric.percent

theorem Tops.unique {loads : Set ℚ} {metric other : EngineMetric} (h : Tops loads metric) (hother : Tops loads other) :
    metric = other := by
  rcases h with ⟨hmetric, hempty⟩ | ⟨havailable, hgreatest⟩
  · rcases hother with ⟨hother, -⟩ | ⟨-, hgreatest⟩
    · rw [hmetric, hother]
    · rw [hempty] at hgreatest
      exact absurd hgreatest.1 (Set.notMem_empty _)
  · rcases hother with ⟨-, hempty⟩ | ⟨havailable', hgreatest'⟩
    · rw [hempty] at hgreatest
      exact absurd hgreatest.1 (Set.notMem_empty _)
    · obtain ⟨available, percent⟩ := metric
      obtain ⟨available', percent'⟩ := other
      cases havailable
      cases havailable'
      exact congrArg (EngineMetric.mk true) (hgreatest.unique hgreatest')

/-- One load more. -/
theorem Tops.apply {loads : Set ℚ} {metric : EngineMetric} (h : Tops loads metric) (bounded : ℚ) :
    Tops (insert bounded loads) (metric.apply bounded) := by
  right
  refine ⟨rfl, ?_⟩
  rcases h with ⟨rfl, rfl⟩ | ⟨havailable, hgreatest⟩
  · show IsGreatest (insert bounded ∅) bounded
    rw [insert_empty_eq]
    exact isGreatest_singleton
  · have hmax : (metric.apply bounded).percent = max bounded metric.percent := by
      rw [EngineMetric.apply, havailable, Bool.not_true, Bool.false_or]
      dsimp only
      by_cases hless : metric.percent < bounded
      · rw [if_pos (decide_eq_true hless), max_eq_left hless.le]
      · rw [if_neg (by rwa [decide_eq_true_eq]), max_eq_right (not_lt.mp hless)]
    rw [hmax]
    exact hgreatest.insert bounded

theorem clampPercent_nonneg (value : ℚ) : 0 ≤ clampPercent value := by
  unfold clampPercent
  split
  next => exact le_refl 0
  next hnonneg =>
    split
    next => exact (by decide : (0 : ℚ) ≤ 100)
    next => exact not_lt.mp hnonneg

def applyAll (gpu : LsmGpuInfo) (samples : List LsmWindowsGpuEngineSample) : LsmGpuInfo :=
  samples.foldl (fun gpu sample => applyGpuEngineSample gpu sample.type sample.utilisation) gpu

theorem applyAll_concat (gpu : LsmGpuInfo) (samples : List LsmWindowsGpuEngineSample) (sample : LsmWindowsGpuEngineSample) :
    applyAll gpu (samples ++ [sample]) = applyGpuEngineSample (applyAll gpu samples) sample.type sample.utilisation :=
  List.foldl_append ..

/-- Only the engines and the utilisation are touched. -/
theorem applyAll_frame (gpu : LsmGpuInfo) (samples : List LsmWindowsGpuEngineSample) :
    applyAll gpu samples = {gpu with
      engine := (applyAll gpu samples).engine
      utilizationPercent := (applyAll gpu samples).utilizationPercent} := by
  induction samples using List.reverseRecOn with
  | nil => rfl
  | append_singleton samples sample ih =>
    rw [applyAll_concat, ih]
    rfl

/-- The loads of the samples of a type. -/
def loadsOf (samples : List LsmWindowsGpuEngineSample) (type : LsmWindowsGpuEngineType) : Set ℚ :=
  {x | ∃ sample ∈ samples, sample.type = type ∧ x = clampPercent sample.utilisation}

theorem loadsOf_concat (samples : List LsmWindowsGpuEngineSample) (sample : LsmWindowsGpuEngineSample)
    (type : LsmWindowsGpuEngineType) : loadsOf (samples ++ [sample]) type =
      if sample.type = type then insert (clampPercent sample.utilisation) (loadsOf samples type) else loadsOf samples type := by
  ext x
  unfold loadsOf
  by_cases htype : sample.type = type
  · rw [if_pos htype, Set.mem_insert_iff]
    simp only [Set.mem_ofPred_eq, List.mem_append, List.mem_singleton, or_and_right, exists_or, exists_eq_left, htype, true_and]
    exact or_comm
  · rw [if_neg htype]
    simp only [Set.mem_ofPred_eq, List.mem_append, List.mem_singleton, or_and_right, exists_or, exists_eq_left, htype,
      false_and, or_false]

theorem applyAll_other (gpu : LsmGpuInfo) (samples : List LsmWindowsGpuEngineSample) :
    (applyAll gpu samples).engine .other = gpu.engine .other := by
  induction samples using List.reverseRecOn with
  | nil => rfl
  | append_singleton samples sample ih =>
    rw [applyAll_concat]
    unfold applyGpuEngineSample
    dsimp only
    split
    next => exact ih
    next hother => rw [Function.update_of_ne (Ne.symm hother), ih]

theorem applyAll_tops (gpu : LsmGpuInfo) (samples : List LsmWindowsGpuEngineSample) {type : LsmWindowsGpuEngineType}
    (htype : type ≠ .other) : Tops (loadsOf samples type) ((applyAll (resetGpuEngineMetrics gpu) samples).engine type) := by
  induction samples using List.reverseRecOn with
  | nil =>
    refine .inl ⟨rfl, Set.eq_empty_iff_forall_notMem.mpr ?_⟩
    rintro x ⟨sample, hsample, -⟩
    cases hsample
  | append_singleton samples sample ih =>
    rw [applyAll_concat, loadsOf_concat]
    unfold applyGpuEngineSample
    dsimp only
    by_cases hsame : sample.type = type
    · rw [if_pos hsame, if_neg (hsame ▸ htype), hsame, Function.update_self]
      exact ih.apply _
    · rw [if_neg hsame]
      split
      next => exact ih
      next => rwa [Function.update_of_ne (Ne.symm hsame)]

/-- The utilisation is the greatest load of any type. -/
theorem applyAll_utilization (gpu : LsmGpuInfo) (samples : List LsmWindowsGpuEngineSample) :
    IsGreatest (insert 0 {x | ∃ type, x ∈ loadsOf samples type})
      (applyAll (resetGpuEngineMetrics gpu) samples).utilizationPercent := by
  induction samples using List.reverseRecOn with
  | nil =>
    have hnone : {x : ℚ | ∃ type, x ∈ loadsOf [] type} = ∅ := by
      refine Set.eq_empty_iff_forall_notMem.mpr ?_
      rintro x ⟨type, sample, hsample, -⟩
      cases hsample
    rw [hnone, insert_empty_eq]
    exact isGreatest_singleton
  | append_singleton samples sample ih =>
    have hmore : {x : ℚ | ∃ type, x ∈ loadsOf (samples ++ [sample]) type} =
        insert (clampPercent sample.utilisation) {x | ∃ type, x ∈ loadsOf samples type} := by
      ext x
      rw [Set.mem_insert_iff, Set.mem_ofPred_eq, Set.mem_ofPred_eq]
      simp only [loadsOf_concat]
      constructor
      · rintro ⟨type, hx⟩
        split at hx
        next => exact hx.imp_right fun h => ⟨type, h⟩
        next => exact .inr ⟨type, hx⟩
      · rintro (rfl | ⟨type, hx⟩)
        · exact ⟨sample.type, by rw [if_pos rfl]; exact Set.mem_insert ..⟩
        · refine ⟨type, ?_⟩
          split
          next => exact Set.mem_insert_of_mem _ hx
          next => exact hx
    rw [hmore, Set.insert_comm, applyAll_concat]
    have hmax : (applyGpuEngineSample (applyAll (resetGpuEngineMetrics gpu) samples) sample.type sample.utilisation).utilizationPercent
        = max (clampPercent sample.utilisation) (applyAll (resetGpuEngineMetrics gpu) samples).utilizationPercent := by
      unfold applyGpuEngineSample
      dsimp only
      split
      next hless => rw [max_eq_left hless.le]
      next hnot => rw [max_eq_right (not_lt.mp hnot)]
    rw [hmax]
    exact ih.insert _

theorem considerGpuEngine_spec (gpu : LsmGpuInfo) (best : ℚ × Text) (type : LsmWindowsGpuEngineType) :
    best.1 ≤ (considerGpuEngine gpu best type).1 ∧
      ((gpu.engine type).available = true → (gpu.engine type).percent ≤ (considerGpuEngine gpu best type).1) ∧
      ((considerGpuEngine gpu best type).1 = best.1 ∨
        (gpu.engine type).available = true ∧ (considerGpuEngine gpu best type).1 = (gpu.engine type).percent) := by
  unfold considerGpuEngine
  cases havailable : (gpu.engine type).available with
  | false => exact ⟨le_refl _, (fun h => by cases h), .inl rfl⟩
  | true =>
    rw [Bool.true_and]
    by_cases hless : best.1 < (gpu.engine type).percent
    · rw [if_pos (decide_eq_true hless)]
      exact ⟨hless.le, fun _ => le_refl _, .inr ⟨rfl, rfl⟩⟩
    · rw [if_neg (by rwa [decide_eq_true_eq])]
      exact ⟨le_refl _, fun _ => not_lt.mp hless, .inl rfl⟩

/-- The peak is one of the values that are considered, and none is greater. -/
theorem considerGpuEngine_foldl (gpu : LsmGpuInfo) (types : List LsmWindowsGpuEngineType) (best : ℚ × Text) :
    best.1 ≤ (types.foldl (considerGpuEngine gpu) best).1 ∧
      (∀ type ∈ types, (gpu.engine type).available = true →
        (gpu.engine type).percent ≤ (types.foldl (considerGpuEngine gpu) best).1) ∧
      ((types.foldl (considerGpuEngine gpu) best).1 = best.1 ∨ ∃ type ∈ types, (gpu.engine type).available = true ∧
        (types.foldl (considerGpuEngine gpu) best).1 = (gpu.engine type).percent) := by
  induction types generalizing best with
  | nil => exact ⟨le_refl _, (fun _ h => by cases h), .inl rfl⟩
  | cons type types ih =>
    obtain ⟨hbest, htype, hone⟩ := considerGpuEngine_spec gpu best type
    obtain ⟨hrest, hall, hsome⟩ := ih (considerGpuEngine gpu best type)
    rw [List.foldl_cons]
    refine ⟨hbest.trans hrest, fun next hnext havailable => ?_, ?_⟩
    · rcases List.mem_cons.mp hnext with rfl | hlater
      · exact (htype havailable).trans hrest
      · exact hall next hlater havailable
    · rcases hsome with hsame | ⟨next, hnext, hvalue⟩
      · rcases hone with hfirst | ⟨havailable, hfirst⟩
        · exact .inl (hsame.trans hfirst)
        · exact .inr ⟨type, List.mem_cons_self .., havailable, hsame.trans hfirst⟩
      · exact .inr ⟨next, List.mem_cons_of_mem _ hnext, hvalue⟩

theorem mem_shownTypes {type : LsmWindowsGpuEngineType} : type ∈ shownTypes ↔ type ≠ .other := by
  cases type <;> decide

/-- The loads of the types that are shown. -/
def shownLoads (loads : LsmWindowsGpuEngineType → Set ℚ) : Set ℚ := {x | ∃ type ∈ shownTypes, x ∈ loads type}

/-- What an adapter shows of the loads of its engines: the greatest of each type, and of all of them. -/
structure Shows (loads : LsmWindowsGpuEngineType → Set ℚ) (gpu : LsmGpuInfo) : Prop where
  engine : ∀ type ∈ shownTypes, Tops (loads type) (gpu.engine type)
  overall : Tops (shownLoads loads) ⟨gpu.utilizationAvailable, gpu.utilizationPercent⟩
  active : gpu.activeEnginePercent = gpu.utilizationPercent

section
variable (gpu : LsmGpuInfo) {samples : List LsmWindowsGpuEngineSample}

theorem available_iff {type : LsmWindowsGpuEngineType} (htype : type ∈ shownTypes) :
    ((applyAll (resetGpuEngineMetrics gpu) samples).engine type).available = true ↔ (loadsOf samples type).Nonempty := by
  rcases applyAll_tops gpu samples (mem_shownTypes.mp htype) with ⟨hmetric, hempty⟩ | ⟨havailable, hgreatest⟩
  · rw [hmetric, hempty]
    exact iff_of_false Bool.false_ne_true Set.not_nonempty_empty
  · exact iff_of_true havailable ⟨_, hgreatest.1⟩

/-- Samples of types that are shown, all of them counted. -/
theorem finalise_shows (hshown : ∀ sample ∈ samples, sample.type ∈ shownTypes) :
    Shows (loadsOf samples) (finaliseGpuEngineMetrics (applyAll (resetGpuEngineMetrics gpu) samples)) := by
  have hall : {x | ∃ type, x ∈ loadsOf samples type} = shownLoads (loadsOf samples) := by
    ext x
    constructor
    · rintro ⟨type, sample, hsample, rfl, hx⟩
      exact ⟨sample.type, hshown sample hsample, sample, hsample, rfl, hx⟩
    · rintro ⟨type, -, hx⟩
      exact ⟨type, hx⟩
  have hutilization := applyAll_utilization gpu samples
  have htops := fun type (htype : type ∈ shownTypes) => applyAll_tops gpu samples (mem_shownTypes.mp htype)
  have havailable : ∀ type ∈ shownTypes, ((applyAll (resetGpuEngineMetrics gpu) samples).engine type).available = true ↔
      (loadsOf samples type).Nonempty := fun _ htype => available_iff gpu htype
  have hframe := applyAll_frame (resetGpuEngineMetrics gpu) samples
  rw [hall] at hutilization
  generalize applyAll (resetGpuEngineMetrics gpu) samples = applied at hutilization htops havailable hframe
  have hcapable : (shownTypes.any fun type => (applied.engine type).available) = true ↔ (shownLoads (loadsOf samples)).Nonempty := by
    rw [List.any_eq_true]
    constructor
    · rintro ⟨type, htype, h⟩
      obtain ⟨x, hx⟩ := (havailable type htype).mp h
      exact ⟨x, type, htype, hx⟩
    · rintro ⟨x, type, htype, hx⟩
      exact ⟨type, htype, (havailable type htype).mpr ⟨x, hx⟩⟩
  unfold finaliseGpuEngineMetrics
  dsimp only
  cases hany : shownTypes.any fun type => (applied.engine type).available with
  | false =>
    have hempty : shownLoads (loadsOf samples) = ∅ := by
      rw [hany] at hcapable
      exact Set.not_nonempty_iff_eq_empty.mp fun h => Bool.false_ne_true (hcapable.mpr h)
    rw [hempty, insert_empty_eq] at hutilization
    have hzero : applied.utilizationPercent = 0 := hutilization.1
    refine ⟨htops, .inl ⟨?_, hempty⟩, ?_⟩
    · show EngineMetric.mk false applied.utilizationPercent = _
      rw [hzero]
    · show applied.activeEnginePercent = applied.utilizationPercent
      rw [hzero, hframe]
      rfl
  | true =>
    obtain ⟨x, hx⟩ := hcapable.mp hany
    have hnonneg : ∀ y ∈ shownLoads (loadsOf samples), 0 ≤ y := by
      rintro y ⟨type, -, sample, -, -, rfl⟩
      exact clampPercent_nonneg _
    have hgreatest : IsGreatest (shownLoads (loadsOf samples)) applied.utilizationPercent := by
      refine ⟨?_, fun y hy => hutilization.2 (.inr hy)⟩
      rcases hutilization.1 with hzero | hmem
      · have hle := hutilization.2 (Set.mem_insert_of_mem 0 hx)
        rw [hzero] at hle ⊢
        rwa [← le_antisymm hle (hnonneg x hx)]
      · exact hmem
    obtain ⟨hpeakZero, hpeakAll, hpeak⟩ := considerGpuEngine_foldl
      {applied with engineMetricsCapable := true, utilizationAvailable := true} shownTypes (0, ascii "Idle")
    refine ⟨htops, .inr ⟨rfl, hgreatest⟩, le_antisymm ?_ ?_⟩
    · rcases hpeak with hzero | ⟨type, htype, hshows, hvalue⟩
      · exact hzero.trans_le (hutilization.2 (Set.mem_insert ..))
      · refine hvalue.trans_le (hgreatest.2 ⟨type, htype, ?_⟩)
        rcases htops type htype with ⟨hmetric, -⟩ | ⟨-, htop⟩
        · rw [show applied.engine type = ⟨false, 0⟩ from hmetric] at hshows
          cases hshows
        · exact htop.1
    · obtain ⟨type, htype, hload⟩ := hgreatest.1
      have hshows := (havailable type htype).mpr ⟨_, hload⟩
      rcases htops type htype with ⟨hmetric, -⟩ | ⟨-, htop⟩
      · rw [hmetric] at hshows
        cases hshows
      · exact (htop.2 hload).trans (hpeakAll type htype hshows)

/-- What an adapter shows is settled by the loads of its samples. -/
theorem finalise_congr {others : List LsmWindowsGpuEngineSample} (hloads : loadsOf others = loadsOf samples) :
    finaliseGpuEngineMetrics (applyAll (resetGpuEngineMetrics gpu) others) =
      finaliseGpuEngineMetrics (applyAll (resetGpuEngineMetrics gpu) samples) := by
  have hengine : (applyAll (resetGpuEngineMetrics gpu) others).engine = (applyAll (resetGpuEngineMetrics gpu) samples).engine := by
    funext type
    by_cases htype : type = .other
    · rw [htype, applyAll_other, applyAll_other]
    · have htops := applyAll_tops gpu others htype
      rw [hloads] at htops
      exact htops.unique (applyAll_tops gpu samples htype)
  have hutilization : (applyAll (resetGpuEngineMetrics gpu) others).utilizationPercent =
      (applyAll (resetGpuEngineMetrics gpu) samples).utilizationPercent := by
    have htop := applyAll_utilization gpu others
    rw [show {x | ∃ type, x ∈ loadsOf others type} = {x | ∃ type, x ∈ loadsOf samples type} by rw [hloads]] at htop
    exact htop.unique (applyAll_utilization gpu samples)
  rw [applyAll_frame _ others, applyAll_frame _ samples, hengine, hutilization]

end

/-! ### The adapters -/

theorem applyEngines_get (engines : List LsmWindowsGpuEngineSample) (hused : ∀ engine ∈ engines, engine.used = true)
    (gpus : List LsmGpuInfo) (index : Nat) : (applyEngines engines gpus)[index]? =
      gpus[index]?.map fun gpu => applyAll gpu (engines.filter fun engine => engine.gpuIndex = index) := by
  induction engines generalizing gpus with
  | nil =>
    cases h : gpus[index]? with
    | none => exact h
    | some gpu => exact h
  | cons engine engines ih =>
    have hrest := ih fun e he => hused e (List.mem_cons_of_mem _ he)
    rw [applyEngines, List.foldl_cons, hused engine (List.mem_cons_self ..), Bool.not_true, Bool.false_or]
    refine (hrest _).trans ?_
    by_cases hwithin : gpus.length ≤ engine.gpuIndex
    · rw [if_pos (decide_eq_true hwithin)]
      cases hgpu : gpus[index]? with
      | none => rfl
      | some gpu =>
        have hne : ¬ engine.gpuIndex = index := by
          rintro rfl
          rw [List.getElem?_eq_none hwithin] at hgpu
          cases hgpu
        rw [List.filter_cons_of_neg (by rwa [decide_eq_true_eq])]
    · rw [if_neg (by rwa [decide_eq_true_eq]), List.getElem?_modify]
      cases hgpu : gpus[index]? with
      | none => rfl
      | some gpu =>
        refine congrArg some ?_
        beta_reduce
        by_cases hsame : engine.gpuIndex = index
        · rw [if_pos hsame, List.filter_cons_of_pos (by rwa [decide_eq_true_eq])]
          rfl
        · rw [if_neg hsame, List.filter_cons_of_neg (by rwa [decide_eq_true_eq])]

/-- An item with a well-formed name. -/
structure Reading where
  engine : EngineInstance
  cStatus : UInt32
  value : ℚ

def Reading.item (r : Reading) : PdhItem where
  szName := r.engine.name
  cStatus := r.cStatus
  doubleValue := r.value

section
variable (gpuLuids : List (Option Luid)) (gpuCount : Nat)

/-- The engine that a name leads to, of an adapter that is known and a type that is shown. -/
def Reading.address (r : Reading) : Option EngineKey :=
  if classifyGpuEngine (some r.engine.type) ∈ shownTypes then
    (gpuIndexForLuid gpuLuids gpuCount r.engine.luid).map fun gpuIndex =>
      { gpuIndex
        physicalIndex := r.engine.physicalIndex
        engineIndex := r.engine.engineIndex
        type := classifyGpuEngine (some r.engine.type) }
  else none

/-- The status is valid or new data, and the value from zero to a million. -/
def Reading.usable (r : Reading) : Bool :=
  (r.cStatus == pdhCstatusValidData || r.cStatus == pdhCstatusNewData) && decide (0 ≤ r.value ∧ r.value ≤ 1000000)

/-- The values of some items by engine. -/
def countedOf (readings : List Reading) : List Counted :=
  readings.filterMap fun r => (r.address gpuLuids gpuCount).map (·, r.value)

theorem countedEngine_item (r : Reading) :
    countedEngine gpuLuids gpuCount r.item = if r.usable then r.address gpuLuids gpuCount else none := by
  obtain ⟨hluid, hphysical, hengine, htype⟩ := parse_name r.engine
  unfold countedEngine Reading.usable Reading.address
  rw [show r.item.szName = r.engine.name from rfl, hluid, hphysical, hengine, htype, show r.item.cStatus = r.cStatus from rfl,
    show r.item.doubleValue = r.value from rfl]
  by_cases hstatus : r.cStatus = pdhCstatusValidData ∨ r.cStatus = pdhCstatusNewData
  · have hstatus' : (r.cStatus == pdhCstatusValidData || r.cStatus == pdhCstatusNewData) = true := by
      rwa [Bool.or_eq_true, beq_iff_eq, beq_iff_eq]
    rw [if_neg (by rw [← not_or, not_not]; exact hstatus), hstatus', Bool.true_and]
    by_cases hvalue : 0 ≤ r.value ∧ r.value ≤ 1000000
    · rw [if_neg (by rwa [not_or, not_not, not_lt]), if_pos (decide_eq_true hvalue)]
      rw [Option.bind_some, Option.bind_some, Option.bind_some]
      by_cases hother : classifyGpuEngine (some r.engine.type) = .other
      · rw [if_neg fun h => mem_shownTypes.mp h hother]
        cases gpuIndexForLuid gpuLuids gpuCount r.engine.luid with
        | none => rfl
        | some gpuIndex => exact if_pos hother
      · rw [if_pos (mem_shownTypes.mpr hother)]
        cases gpuIndexForLuid gpuLuids gpuCount r.engine.luid with
        | none => rfl
        | some gpuIndex => exact if_neg hother
    · rw [if_pos (by rwa [← not_le, ← not_and_or]), if_neg (by rwa [decide_eq_true_eq])]
  · have hstatus' : (r.cStatus == pdhCstatusValidData || r.cStatus == pdhCstatusNewData) = false := by
      rw [Bool.eq_false_iff, ne_eq, Bool.or_eq_true, beq_iff_eq, beq_iff_eq]
      exact hstatus
    rw [if_pos (not_or.mp hstatus), hstatus', Bool.false_and, if_neg Bool.false_ne_true]

theorem addItems_readings (readings : List Reading) (e : Engines) : addItems gpuLuids gpuCount (readings.map Reading.item) e =
    addAll (countedOf gpuLuids gpuCount (readings.filter Reading.usable)) e := by
  rw [addItems_eq, List.filterMap_map, countedOf, List.filterMap_filter]
  refine congrArg (addAll · e) (List.filterMap_congr fun r _ => ?_)
  show (countedEngine gpuLuids gpuCount r.item).map (·, r.value) = _
  rw [countedEngine_item]
  split
  next => rfl
  next => rfl

theorem countedOf_shown {readings : List Reading} {key : EngineKey}
    (h : key ∈ enginesOf (countedOf gpuLuids gpuCount readings)) : key.type ∈ shownTypes := by
  obtain ⟨⟨k, value⟩, hmem, rfl⟩ := mem_keysOf.mp h
  obtain ⟨r, -, hr⟩ := List.mem_filterMap.mp hmem
  obtain ⟨key, hkey, hpair⟩ := Option.map_eq_some_iff.mp hr
  cases hpair
  unfold Reading.address at hkey
  split at hkey
  next hshown =>
    obtain ⟨index, -, rfl⟩ := Option.map_eq_some_iff.mp hkey
    exact hshown
  next => cases hkey

/-- The clamped sums of an adapter's engines of a type. -/
def engineLoads (counted : List Counted) (gpuIndex : Nat) (type : LsmWindowsGpuEngineType) : Set ℚ :=
  {x | ∃ key ∈ enginesOf counted, key.gpuIndex = gpuIndex ∧ key.type = type ∧ x = clampPercent (total counted key)}

theorem loadsOf_tally (counted : List Counted) (gpuIndex : Nat) :
    loadsOf (((enginesOf counted).map (tallied counted)).filter fun engine => engine.gpuIndex = gpuIndex) =
      engineLoads counted gpuIndex := by
  funext type
  ext x
  constructor
  · rintro ⟨sample, hsample, htype, hx⟩
    obtain ⟨hmem, hindex⟩ := List.mem_filter.mp hsample
    obtain ⟨key, hkey, rfl⟩ := List.mem_map.mp hmem
    exact ⟨key, hkey, of_decide_eq_true hindex, htype, hx⟩
  · rintro ⟨key, hkey, hindex, htype, hx⟩
    exact ⟨tallied counted key, List.mem_filter.mpr ⟨List.mem_map_of_mem hkey, decide_eq_true hindex⟩, htype, hx⟩

theorem engineLoads_perm {counted others : List Counted} (h : others.Perm counted) (gpuIndex : Nat) :
    engineLoads others gpuIndex = engineLoads counted gpuIndex := by
  funext type
  ext x
  refine exists_congr fun key => and_congr (keysOf_perm h).mem_iff ?_
  rw [total, total, totalOf_perm Prod.snd h]

theorem reset_reset (gpus : List LsmGpuInfo) :
    (gpus.map resetGpuEngineMetrics).map resetGpuEngineMetrics = gpus.map resetGpuEngineMetrics := by
  rw [List.map_map]
  rfl

end

section
variable (gpuLuids : List (Option Luid)) (gpus : List LsmGpuInfo) (readings : List Reading)

/-- The items that count, by engine. -/
abbrev usableCounted : List Counted := countedOf gpuLuids gpus.length (readings.filter Reading.usable)

theorem update_full (hfull : ¬ (enginesOf (usableCounted gpuLuids gpus readings)).length ≤ lsmWindowsGpuEngineLimit) :
    updateGpuEngineMetrics gpuLuids gpus (some (readings.map Reading.item)) = gpus.map resetGpuEngineMetrics := by
  have hadd := addAll_tallied .empty (Nat.zero_le _) (usableCounted gpuLuids gpus readings)
  rw [List.nil_append, if_neg hfull, ← addItems_readings] at hadd
  unfold updateGpuEngineMetrics
  dsimp only
  rw [List.length_map, hadd]
  exact reset_reset gpus

theorem update_get (hroom : (enginesOf (usableCounted gpuLuids gpus readings)).length ≤ lsmWindowsGpuEngineLimit)
    (index : Nat) : (updateGpuEngineMetrics gpuLuids gpus (some (readings.map Reading.item)))[index]? =
      gpus[index]?.map fun gpu => finaliseGpuEngineMetrics (applyAll (resetGpuEngineMetrics gpu)
        (((enginesOf (usableCounted gpuLuids gpus readings)).map (tallied (usableCounted gpuLuids gpus readings))).filter
          fun engine => engine.gpuIndex = index)) := by
  have hadd := addAll_tallied .empty (Nat.zero_le _) (usableCounted gpuLuids gpus readings)
  rw [List.nil_append, if_pos hroom, ← addItems_readings] at hadd
  obtain ⟨e, he, htallied⟩ := hadd
  unfold updateGpuEngineMetrics
  dsimp only
  rw [List.length_map, he]
  dsimp only
  rw [List.getElem?_map, applyEngines_get, List.getElem?_map, htallied.engines, Option.map_map, Option.map_map]
  · rfl
  · intro engine hengine
    rw [htallied.engines] at hengine
    obtain ⟨key, -, rfl⟩ := List.mem_map.mp hengine
    rfl

theorem update_shows (hroom : (enginesOf (usableCounted gpuLuids gpus readings)).length ≤ lsmWindowsGpuEngineLimit)
    {index : Nat} {gpu : LsmGpuInfo}
    (hgpu : (updateGpuEngineMetrics gpuLuids gpus (some (readings.map Reading.item)))[index]? = some gpu) :
    Shows (engineLoads (usableCounted gpuLuids gpus readings) index) gpu := by
  rw [update_get gpuLuids gpus readings hroom] at hgpu
  obtain ⟨before, -, rfl⟩ := Option.map_eq_some_iff.mp hgpu
  rw [← loadsOf_tally]
  refine finalise_shows before fun sample hsample => ?_
  obtain ⟨key, hkey, rfl⟩ := List.mem_map.mp (List.mem_filter.mp hsample).1
  exact countedOf_shown gpuLuids gpus.length hkey

/-- The order of the items does not matter. -/
theorem update_perm {others : List Reading} (h : others.Perm readings) :
    updateGpuEngineMetrics gpuLuids gpus (some (others.map Reading.item)) =
      updateGpuEngineMetrics gpuLuids gpus (some (readings.map Reading.item)) := by
  have hcounted : (usableCounted gpuLuids gpus others).Perm (usableCounted gpuLuids gpus readings) :=
    (h.filter _).filterMap _
  have hlength : (enginesOf (usableCounted gpuLuids gpus others)).length =
      (enginesOf (usableCounted gpuLuids gpus readings)).length := (keysOf_perm hcounted).length_eq
  by_cases hroom : (enginesOf (usableCounted gpuLuids gpus readings)).length ≤ lsmWindowsGpuEngineLimit
  · refine List.ext_getElem? fun index => ?_
    rw [update_get gpuLuids gpus others (hlength ▸ hroom), update_get gpuLuids gpus readings hroom]
    cases gpus[index]? with
    | none => rfl
    | some gpu =>
      refine congrArg some (finalise_congr gpu ?_)
      rw [loadsOf_tally, loadsOf_tally, engineLoads_perm hcounted]
  · rw [update_full gpuLuids gpus others (hlength ▸ hroom), update_full gpuLuids gpus readings hroom]

/-- Every table that any items lead to. -/
theorem lookup_ends {items : List PdhItem} {e : Engines} (h : addItems gpuLuids gpus.length items .empty = some e)
    (key : EngineKey) : e.lookup key ≠ .exhausted := by
  rw [addItems_eq] at h
  have hadd := addAll_tallied .empty (Nat.zero_le _)
    (items.filterMap fun item => (countedEngine gpuLuids gpus.length item).map (·, item.doubleValue))
  split at hadd
  next hroom =>
    obtain ⟨after, hafter, htallied⟩ := hadd
    rw [h, Option.some_inj] at hafter
    rw [hafter, htallied.lookup_eq]
    exact htallied.addressed.probe_ne_exhausted (Tallied.room hroom) key
  next =>
    rw [h] at hadd
    cases hadd

end

/-- **The aggregation is a naive grouping.** Of the items that can be used, each adapter shows the greatest of its
engines' clamped sums, by type and overall; with more engines than there is room for no adapter shows anything. The order
of the items does not matter, and every lookup in a table that is reached comes to an end. -/
theorem gpu_engines_grouped (gpuLuids : List (Option Luid)) (gpus : List LsmGpuInfo) (readings : List Reading) :
    let counted := countedOf gpuLuids gpus.length (readings.filter Reading.usable)
    let shown := updateGpuEngineMetrics gpuLuids gpus (some (readings.map Reading.item))
    (if (enginesOf counted).length ≤ lsmWindowsGpuEngineLimit then
      ∀ index gpu, shown[index]? = some gpu → Shows (engineLoads counted index) gpu
    else shown = gpus.map resetGpuEngineMetrics) ∧
    (∀ others : List Reading, others.Perm readings →
      updateGpuEngineMetrics gpuLuids gpus (some (others.map Reading.item)) = shown) ∧
    ∀ items e key, addItems gpuLuids gpus.length items .empty = some e → e.lookup key ≠ .exhausted := by
  intro counted shown
  refine ⟨?_, fun others h => update_perm gpuLuids gpus readings h, fun items e key h => lookup_ends gpuLuids gpus h key⟩
  split
  next hroom => exact fun index gpu hgpu => update_shows gpuLuids gpus readings hroom hgpu
  next hfull => exact update_full gpuLuids gpus readings hfull

/-- One item of the first adapter's render engine, with a value of more than a million. -/
def beyondRange : Reading where
  engine := { pid := 4, luid := ⟨0, 0⟩, physicalIndex := 0, engineIndex := 0, type := wide "3D" }
  cStatus := pdhCstatusValidData
  value := 1000001

def blankGpu : LsmGpuInfo where
  engine _ := ⟨false, 0⟩
  utilizationPercent := 0
  activeEnginePercent := 0
  utilizationAvailable := false
  engineMetricsCapable := false
  activeEngine := []
  supportedMetrics := false
  metricsSource := []

/-- An item that is out of range is no part of the sums. -/
theorem out_of_range_passed_over :
    ¬ ∀ (gpuLuids : List (Option Luid)) (gpus : List LsmGpuInfo) (readings : List Reading),
      let counted := countedOf gpuLuids gpus.length readings
      (enginesOf counted).length ≤ lsmWindowsGpuEngineLimit → ∀ index gpu,
        (updateGpuEngineMetrics gpuLuids gpus (some (readings.map Reading.item)))[index]? = some gpu →
          Shows (engineLoads counted index) gpu := by
  intro hall
  have hshows := hall [some ⟨0, 0⟩] [blankGpu] [beyondRange] (by decide) 0 (resetGpuEngineMetrics blankGpu) rfl
  rcases hshows.engine .render (by decide) with ⟨-, hempty⟩ | ⟨havailable, -⟩
  · refine Set.eq_empty_iff_forall_notMem.mp hempty _ ⟨⟨0, 0, 0, .render⟩, ?_, rfl, rfl, rfl⟩
    decide
  · cases havailable

end SystemMonitor.Windows.GpuEngines
