import SystemMonitor.Hardware.Identities

/-! Telemetry stays with its device.

Three arrays stand side by side: the published adapters, the baselines found by
identity, and the caches found by position. One invariant ties them together
(`Paired`): caches and baselines carry the identities of the adapters they stand
beside, NVML only ever appends behind them, and each allocation has one owner.
Every refresh and every adapter of an update keep it, whatever is enumerated
(`telemetry_stays_with_device`). -/
namespace SystemMonitor.Hardware
open Lib Arena

/-! ### Building -/

/-- The directory an identity stands for. -/
def identityBase (identity : Chars 512) : Text :=
  if identity.text.head? = some 47 then identity.text
  else ascii "/sys/class/drm/" ++ identity.text.take 63 ++ ascii "/device"

theorem gpuBase_eq {gpu : LsmGpuInfo} (h : Sourced gpu) : gpuBase gpu = identityBase (gpuStableIdentity gpu) := by
  unfold gpuBase identityBase
  rcases h.head with ⟨hne, hidentity, hhead⟩ | ⟨hempty, htext, hhead⟩
  · rw [if_neg hne, if_pos hhead, hidentity]
  · rw [if_pos hempty, hhead, if_neg (by decide), htext]

/-- Every path is below the directory. -/
def Below (base : Text) (paths : List CachedPath) : Prop := ∀ p ∈ paths, ∃ relative, p.path = base ++ relative

theorem Below.append {base : Text} {a b : List CachedPath} (ha : Below base a) (hb : Below base b) :
    Below base (a ++ b) := fun p hp => (List.mem_append.mp hp).elim (ha p) (hb p)

theorem cachePaths_below (base : Text) (files : List Text) (arena : Arena) :
    Below base (cachePaths base files arena).1 := by
  induction files generalizing arena with
  | nil => exact fun p hp => absurd hp List.not_mem_nil
  | cons relative rest ih => exact List.forall_mem_cons.mpr ⟨⟨relative, rfl⟩, ih arena.grow⟩

theorem keepComplete_below {base : Text} (complete : Bool) {paths : List CachedPath × Arena} (h : Below base paths.1) :
    Below base (keepComplete complete paths).1 := by
  unfold keepComplete
  split
  · exact h
  · exact fun p hp => absurd hp List.not_mem_nil

theorem Owns.cachePaths (base : Text) (files : List Text) {arena : Arena} {owned : List Nat} (h : Owns arena owned) :
    Owns (cachePaths base files arena).2 ((cachePaths base files arena).1.map CachedPath.pointer ++ owned) := by
  induction files generalizing arena owned with
  | nil => exact h
  | cons relative rest ih =>
    refine (ih h.grow).perm ?_
    exact List.perm_middle.symm

theorem Owns.keepComplete (complete : Bool) {paths : List CachedPath × Arena} {owned : List Nat}
    (h : Owns paths.2 (paths.1.map CachedPath.pointer ++ owned)) :
    Owns (keepComplete complete paths).2 ((keepComplete complete paths).1.map CachedPath.pointer ++ owned) := by
  unfold Hardware.keepComplete
  split
  · exact h
  · exact h.release

theorem Owns.cacheOne (present : Bool) {arena : Arena} {owned : List Nat} (h : Owns arena owned) :
    Owns (cacheOne present arena).2 ((cacheOne present arena).1.toList ++ owned) := by
  cases present with
  | false => exact h
  | true => exact h.grow

/-- A cache is of the device its identity names. -/
def OfDevice (cache : LsmGpuTelemetryCache) : Prop := Below (identityBase cache.identity) cache.paths

theorem build_ofDevice (lib : Library) (sysfs : Text → DeviceFiles) {gpu : LsmGpuInfo} (h : Sourced gpu)
    (arena : Arena) : OfDevice (buildGpuTelemetryCache lib sysfs gpu arena).1 := by
  show Below (identityBase (gpuStableIdentity gpu)) _
  rw [← gpuBase_eq h]
  apply Below.append
  · apply Below.append
    · intro p hp
      obtain ⟨pointer, -, rfl⟩ := Option.map_eq_some_iff.mp (Option.mem_toList.mp hp)
      exact ⟨gpuBusyFile, rfl⟩
    · exact (cachePaths_below _ _ _).append (keepComplete_below _ (cachePaths_below _ _ _))
  · exact keepComplete_below _ (cachePaths_below _ _ _)

theorem build_owns (lib : Library) (sysfs : Text → DeviceFiles) (gpu : LsmGpuInfo) {arena : Arena} {owned : List Nat}
    (h : Owns arena owned) : Owns (buildGpuTelemetryCache lib sysfs gpu arena).2
      ((buildGpuTelemetryCache lib sysfs gpu arena).1.pointers ++ owned) := by
  unfold buildGpuTelemetryCache
  extract_lets base files busy metrics intel engines hwmon
  have hbusy : Owns busy.2 (busy.1.toList ++ owned) := Owns.cacheOne _ h
  have hmetrics : Owns metrics.2 (metrics.1.map CachedPath.pointer ++ (busy.1.toList ++ owned)) :=
    Owns.cachePaths base files.metrics hbusy
  have hintel : Owns intel.2 (intel.1.toList ++ (metrics.1.map CachedPath.pointer ++ (busy.1.toList ++ owned))) :=
    Owns.cacheOne _ hmetrics
  have hengines : Owns engines.2 (engines.1.map CachedPath.pointer ++
      (intel.1.toList ++ (metrics.1.map CachedPath.pointer ++ (busy.1.toList ++ owned)))) :=
    Owns.keepComplete files.enginesComplete (Owns.cachePaths base files.engines hintel)
  have hhwmon : Owns hwmon.2 (hwmon.1.map CachedPath.pointer ++ (engines.1.map CachedPath.pointer ++
      (intel.1.toList ++ (metrics.1.map CachedPath.pointer ++ (busy.1.toList ++ owned))))) :=
    Owns.keepComplete files.hwmonComplete (Owns.cachePaths base files.hwmon hengines)
  refine hhwmon.perm ?_
  have hpointer : (busy.1.map (⟨base ++ gpuBusyFile, ·⟩)).toList.map CachedPath.pointer = busy.1.toList := by
    cases busy.1 <;> rfl
  rw [List.perm_iff_count]
  intro pointer
  simp only [LsmGpuTelemetryCache.pointers, LsmGpuTelemetryCache.paths, List.map_append, hpointer, List.count_append]
  omega

theorem gpuCaches_lawful (lib : Library) (input : TelemetryInput) : (gpuCaches lib input).Lawful Sourced OfDevice where
  zero_pointers := rfl
  key_ne_zero _ hgpu := hgpu.identity_ne_empty
  build_key _ _ := rfl
  build_built _ arena hgpu := build_ofDevice lib input.sysfs hgpu arena
  build_owns gpu _ _ h := build_owns lib input.sysfs gpu h

/-- An accelerator with its resolved device. -/
def Resolved (npu : LsmNpuInfo) : Prop := npu.platformIdentity ≠ .empty

theorem npuCaches_lawful (input : TelemetryInput) : (npuCaches input).Lawful Resolved fun _ => True where
  zero_pointers := rfl
  key_ne_zero npu hnpu := by
    show npuStableIdentity npu ≠ .empty
    rw [npuStableIdentity, if_neg hnpu]
    exact hnpu
  build_key _ _ := rfl
  build_built _ _ _ := trivial
  build_owns _ _ _ h := Owns.cacheOne _ h

/-! ### The invariant -/

/-- A recorded baseline is the last that was recorded for its identity. -/
def Recorded (log : List (Chars 512 × Option Nat)) (state : LsmLinuxGpuState) : Prop :=
  state.engineBusyInitialized = true →
    lastRecord log state.platformIdentity = some (some state.previousEngineBusyNs)

/-- Whatever a monitor's telemetry caches own. -/
def ownedPointers (monitor : LsmMonitor) : List Nat :=
  monitor.gpuTelemetry.flatMap LsmGpuTelemetryCache.pointers ++
    monitor.npuTelemetry.flatMap fun cache => cache.backend.toList

structure Paired (log : List (Chars 512 × Option Nat)) (monitor : LsmMonitor) : Prop where
  gpus : Identified monitor.gpus
  npus : ∀ npu ∈ monitor.npus, Resolved npu
  gpuTelemetry : monitor.gpuTelemetry.map LsmGpuTelemetryCache.identity <+: monitor.gpus.map gpuStableIdentity
  ofDevice : ∀ cache ∈ monitor.gpuTelemetry, OfDevice cache
  npuTelemetry : monitor.npuTelemetry.map LsmNpuTelemetryCache.identity = monitor.npus.map npuStableIdentity
  owns : Owns monitor.heap (ownedPointers monitor)
  gpuStates : monitor.gpuStates.map LsmLinuxGpuState.platformIdentity <+: monitor.gpus.map gpuStableIdentity
  recorded : ∀ state ∈ monitor.gpuStates, Recorded log state

theorem Paired.start : Paired [] {} where
  gpus := Identified.nil
  npus _ h := absurd h List.not_mem_nil
  gpuTelemetry := List.nil_prefix
  ofDevice _ h := absurd h List.not_mem_nil
  npuTelemetry := rfl
  owns := Owns.start
  gpuStates := List.nil_prefix
  recorded _ h := absurd h List.not_mem_nil

/-- Positions below a prefix agree. -/
theorem getElem?_of_prefix {α β γ : Type} {f : α → γ} {g : β → γ} {a : List α} {b : List β} (h : a.map f <+: b.map g)
    {i : Nat} {x : α} {y : β} (hx : a[i]? = some x) (hy : b[i]? = some y) : f x = g y := by
  obtain ⟨rest, hrest⟩ := h
  have hfx : (a.map f)[i]? = some (f x) := by rw [List.getElem?_map, hx, Option.map_some]
  have hgy : (b.map g)[i]? = some (g y) := by rw [List.getElem?_map, hy, Option.map_some]
  rw [← hrest, List.getElem?_append_left (List.getElem?_eq_some_iff.mp hfx).1, hfx] at hgy
  exact Option.some_inj.mp hgy

section
variable {lib : Library} {log : List (Chars 512 × Option Nat)} {monitor : LsmMonitor}

/-! ### The refresh -/

/-- The baseline an adapter gets was recorded for its identity. -/
theorem Recorded.reconcile (h : ∀ state ∈ monitor.gpuStates, Recorded log state) (gpu : LsmGpuInfo) :
    Recorded log (reconcileGpuState lib monitor.gpuStates gpu) := by
  cases hfind : findGpuState monitor.gpuStates (gpuStableIdentity gpu) with
  | none =>
    intro hinitialized
    simp only [reconcileGpuState, hfind, Option.getD_none] at hinitialized
    cases hinitialized
  | some state =>
    have hstate := h state (List.mem_of_find?_eq_some hfind)
    have hidentity : state.platformIdentity = gpuStableIdentity gpu := by simpa using List.find?_some hfind
    intro hinitialized
    simp only [reconcileGpuState, hfind, Option.getD_some] at hinitialized ⊢
    rw [← hidentity]
    exact hstate hinitialized

theorem resolved_enumerate {npus : List LsmNpuInfo} (h : ∀ npu ∈ npus, Resolved npu) (records : Option (List NpuRecord)) :
    ∀ npu ∈ enumerateNpus records npus, Resolved npu := by
  cases records with
  | none => exact h
  | some records =>
    intro npu hnpu
    obtain ⟨record, -, rfl⟩ := List.mem_map.mp hnpu
    exact ne_empty_of_head record.device.absolute

theorem Paired.refresh (h : Paired log monitor) {input : RefreshInput} (hdistinct : input.toTopologyInput.Distinct) :
    Paired log (refreshHardwareTopology lib input monitor) := by
  have hgpus := h.gpus.refresh lib hdistinct
  have hnpus : ∀ npu ∈ (discovered lib input.toTopologyInput monitor).npus, Resolved npu := by
    intro npu hnpu
    exact resolved_enumerate h.npus input.npus npu ((lib.qsort_perm _ _).mem_iff.mp hnpu)
  -- The state whose caches are synchronised: new lists, old caches.
  let reconciled := (lsmHardwareTopologyReconcile monitor (discovered lib input.toTopologyInput monitor)).1
  have hspec := CacheKind.synchronise_spec (gpuCaches_lawful lib input.toTelemetryInput) reconciled.gpus
    hgpus.sourced h.ofDevice h.owns
  obtain ⟨hkeys, hbuilt, howns⟩ := hspec
  have hnpuSpec := CacheKind.synchronise_spec (npuCaches_lawful input.toTelemetryInput) reconciled.npus hnpus
    (fun _ _ => trivial) (howns.perm List.perm_append_comm)
  obtain ⟨hnpuKeys, -, hnpuOwns⟩ := hnpuSpec
  have hpaired : Paired log (synchroniseTelemetryCaches lib input.toTelemetryInput (reconcileGpuStates lib reconciled)) :=
    { gpus := hgpus
      npus := hnpus
      gpuTelemetry := hkeys ▸ List.prefix_refl _
      ofDevice := hbuilt
      npuTelemetry := hnpuKeys
      owns := hnpuOwns.perm List.perm_append_comm
      gpuStates := by
        show ((reconciled.gpus.take lsmMaxGpus).map (reconcileGpuState lib monitor.gpuStates)).map
          LsmLinuxGpuState.platformIdentity <+: _
        rw [List.map_map]
        exact (List.take_prefix lsmMaxGpus reconciled.gpus).map gpuStableIdentity
      recorded := by
        intro state hstate
        obtain ⟨gpu, -, rfl⟩ := List.mem_map.mp hstate
        exact Recorded.reconcile h.recorded gpu }
  unfold refreshHardwareTopology
  dsimp only
  split
  · exact ⟨hpaired.gpus, hpaired.npus, hpaired.gpuTelemetry, hpaired.ofDevice, hpaired.npuTelemetry, hpaired.owns,
      hpaired.gpuStates, hpaired.recorded⟩
  · exact hpaired

end

/-! ### The update -/

theorem lastRecord_append (log : List (Chars 512 × Option Nat)) (record : Chars 512 × Option Nat) (identity : Chars 512) :
    lastRecord (log ++ [record]) identity =
      if record.1 = identity then some record.2 else lastRecord log identity := by
  rw [lastRecord, lastOf_concat]
  split <;> rfl

theorem mem_modify {α : Type} {l : List α} {i : Nat} {f : α → α} {x : α} (h : x ∈ l.modify i f) :
    (∃ old, l[i]? = some old ∧ x = f old) ∨ ∃ k, k ≠ i ∧ l[k]? = some x := by
  obtain ⟨k, hk⟩ := List.mem_iff_getElem?.mp h
  by_cases hik : i = k
  · rw [← hik, List.getElem?_modify_eq] at hk
    obtain ⟨old, hold, rfl⟩ := Option.map_eq_some_iff.mp hk
    exact Or.inl ⟨old, hold, rfl⟩
  · rw [List.getElem?_modify_ne f l hik] at hk
    exact Or.inr ⟨k, fun h => hik h.symm, hk⟩

theorem map_modify {α γ : Type} {f : α → α} {g : α → γ} (hf : ∀ x, g (f x) = g x) (l : List α) (i : Nat) :
    (l.modify i f).map g = l.map g := by
  induction l generalizing i with
  | nil => cases i <;> rfl
  | cons x rest ih =>
    cases i with
    | zero => rw [List.modify_zero_cons, List.map_cons, List.map_cons, hf]
    | succ i => rw [List.modify_succ_cons, List.map_cons, List.map_cons, ih]

theorem map_identifiers_set {gpus : List LsmGpuInfo} {i : Nat} {gpu new : LsmGpuInfo} (hi : gpus[i]? = some gpu)
    (hsame : identifiers new = identifiers gpu) : (gpus.set i new).map identifiers = gpus.map identifiers := by
  obtain ⟨hlt, hget⟩ := List.getElem?_eq_some_iff.mp hi
  rw [List.map_set, hsame, ← hget]
  apply List.ext_getElem?
  intro k
  by_cases hik : i = k
  · subst hik
    rw [List.getElem?_set_self (by rwa [List.length_map]), List.getElem?_map, List.getElem?_eq_getElem hlt, Option.map_some]
  · rw [List.getElem?_set_ne hik]

/-- Baselines at different places are of different adapters. -/
theorem identity_ne {states : List LsmLinuxGpuState}
    (hdistinct : (states.map LsmLinuxGpuState.platformIdentity).Nodup) {i k : Nat} {a b : LsmLinuxGpuState}
    (hi : states[i]? = some a) (hk : states[k]? = some b) (hne : i ≠ k) : a.platformIdentity ≠ b.platformIdentity := by
  intro hsame
  apply hne
  have ha : (states.map LsmLinuxGpuState.platformIdentity)[i]? = some a.platformIdentity := by
    rw [List.getElem?_map, hi, Option.map_some]
  have hb : (states.map LsmLinuxGpuState.platformIdentity)[k]? = some b.platformIdentity := by
    rw [List.getElem?_map, hk, Option.map_some]
  rw [hsame, ← hb] at ha
  exact (List.getElem?_inj (by rw [List.length_map]; exact (List.getElem?_eq_some_iff.mp hi).1) hdistinct).mp ha

theorem sampledState_platformIdentity (source : UtilizationSource) (state : LsmLinuxGpuState) :
    (sampledState source state).platformIdentity = state.platformIdentity := by
  unfold sampledState
  split <;> rfl

section
variable {lib : Library} {log : List (Chars 512 × Option Nat)} {monitor : LsmMonitor} {reads : UpdateReads}

/-- The record of an identity only matters to the one baseline that has it. -/
theorem Recorded.sampled {states : List LsmLinuxGpuState}
    (hdistinct : (states.map LsmLinuxGpuState.platformIdentity).Nodup) (h : ∀ state ∈ states, Recorded log state)
    {i : Nat} {found : LsmLinuxGpuState} (hi : states[i]? = some found) (total : Option Nat) :
    ∀ state ∈ states.modify i (sampledState (.engines total)),
      Recorded (log ++ [(found.platformIdentity, total)]) state := by
  intro state hstate hinitialized
  rcases mem_modify hstate with ⟨old, hold, rfl⟩ | ⟨k, hki, hk⟩
  · rw [hi] at hold
    cases hold
    rw [sampledState_platformIdentity, lastRecord_append, if_pos rfl]
    cases total with
    | none => cases hinitialized
    | some total => rfl
  · rw [lastRecord_append, if_neg (identity_ne hdistinct hi hk hki.symm)]
    exact h state (List.mem_of_getElem? hk) hinitialized

/-- What the loop body does to the baselines, beside what it records. -/
inductive Sampled (monitor : LsmMonitor) : List LsmLinuxGpuState → Option (Chars 512 × Option Nat) → Prop where
  | untouched : Sampled monitor monitor.gpuStates none
  | recorded (i : Nat) (found : LsmLinuxGpuState) (total : Option Nat) (hi : monitor.gpuStates[i]? = some found) :
    Sampled monitor (monitor.gpuStates.modify i (sampledState (.engines total))) (some (found.platformIdentity, total))

/-- The adapters keep their identities, and the caches are only read. -/
theorem updateGpu_cases (lib : Library) (reads : UpdateReads) (monitor : LsmMonitor) (index : Nat) :
    ∃ gpus gpuStates, updateGpu lib reads monitor index = {monitor with gpus, gpuStates} ∧
      gpus.map identifiers = monitor.gpus.map identifiers ∧
      Sampled monitor gpuStates (baselineRecord reads monitor index) := by
  unfold updateGpu baselineRecord
  cases hgpu : monitor.gpus[index]? with
  | none => exact ⟨monitor.gpus, monitor.gpuStates, rfl, rfl, .untouched⟩
  | some gpu =>
    refine ⟨_, _, rfl, map_identifiers_set hgpu rfl, ?_⟩
    rw [Option.bind_some]
    cases hfind : monitor.gpuStates.findIdx? fun state => state.platformIdentity = gpuStableIdentity gpu with
    | none =>
      have hnone : findGpuState monitor.gpuStates (gpuStableIdentity gpu) = none := by
        apply List.find?_eq_none.mpr
        simpa using List.findIdx?_eq_none_iff.mp hfind
      rw [hnone, Option.bind_none]
      exact .untouched
    | some i =>
      obtain ⟨hlt, hmatch, -⟩ := List.findIdx?_eq_some_iff_getElem.mp hfind
      have hi : monitor.gpuStates[i]? = some monitor.gpuStates[i] := List.getElem?_eq_getElem hlt
      have hidentity : monitor.gpuStates[i].platformIdentity = gpuStableIdentity gpu := of_decide_eq_true hmatch
      have hsome : (findGpuState monitor.gpuStates (gpuStableIdentity gpu)).isSome = true :=
        List.find?_isSome.mpr ⟨_, List.mem_of_getElem? hi, hmatch⟩
      obtain ⟨found, hfound⟩ := Option.isSome_iff_exists.mp hsome
      rw [hfound, Option.bind_some]
      cases utilizationSource reads monitor.gpuTelemetry[index]? with
      | native percent =>
        have hid : monitor.gpuStates.modify i (sampledState (.native percent)) = monitor.gpuStates :=
          List.modify_id i monitor.gpuStates
        dsimp only
        rw [hid]
        exact .untouched
      | busy percent =>
        have hid : monitor.gpuStates.modify i (sampledState (.busy percent)) = monitor.gpuStates :=
          List.modify_id i monitor.gpuStates
        dsimp only
        rw [hid]
        exact .untouched
      | engines total =>
        dsimp only
        rw [← hidentity]
        exact .recorded i _ total hi

theorem Paired.states_nodup (h : Paired log monitor) :
    (monitor.gpuStates.map LsmLinuxGpuState.platformIdentity).Nodup := h.gpus.distinct.sublist h.gpuStates.sublist

theorem Paired.updateGpu (h : Paired log monitor) (index : Nat) :
    Paired (log ++ (baselineRecord reads monitor index).toList) (updateGpu lib reads monitor index) := by
  obtain ⟨gpus, gpuStates, hupdate, hsame, hsampled⟩ := updateGpu_cases lib reads monitor index
  rw [hupdate]
  generalize baselineRecord reads monitor index = record at hsampled ⊢
  have hidentities := map_gpuStableIdentity_congr hsame
  have hstates : gpuStates.map LsmLinuxGpuState.platformIdentity =
      monitor.gpuStates.map LsmLinuxGpuState.platformIdentity := by
    cases hsampled with
    | untouched => rfl
    | recorded i found total hi => exact map_modify (fun state => sampledState_platformIdentity _ state) _ i
  refine ⟨h.gpus.congr hsame, h.npus, ?_, h.ofDevice, h.npuTelemetry, h.owns, ?_, ?_⟩
  · show _ <+: gpus.map gpuStableIdentity
    rw [hidentities]
    exact h.gpuTelemetry
  · show gpuStates.map _ <+: gpus.map gpuStableIdentity
    rw [hidentities, hstates]
    exact h.gpuStates
  · cases hsampled with
    | untouched =>
      rw [Option.toList_none, List.append_nil]
      exact h.recorded
    | recorded i found total hi => exact Recorded.sampled h.states_nodup h.recorded hi total

theorem updateGpusBelow_succ (lib : Library) (reads : UpdateReads) (count : Nat) (monitor : LsmMonitor) :
    updateGpusBelow lib reads (count + 1) monitor =
      Hardware.updateGpu lib reads (updateGpusBelow lib reads count monitor) count := by
  rw [updateGpusBelow, List.range_succ, List.foldl_append]
  rfl

theorem recordsBelow_succ (lib : Library) (reads : UpdateReads) (count : Nat) (monitor : LsmMonitor) :
    recordsBelow lib reads (count + 1) monitor = recordsBelow lib reads count monitor ++
      (baselineRecord reads (updateGpusBelow lib reads count monitor) count).toList := by
  rw [recordsBelow, List.range_succ, List.flatMap_append, List.flatMap_singleton]
  rfl

theorem Paired.updateGpusBelow (h : Paired log monitor) (lib : Library) (reads : UpdateReads) (count : Nat) :
    Paired (log ++ recordsBelow lib reads count monitor) (updateGpusBelow lib reads count monitor) := by
  induction count with
  | zero =>
    rw [show recordsBelow lib reads 0 monitor = [] from rfl, List.append_nil]
    exact h
  | succ count ih =>
    rw [updateGpusBelow_succ, recordsBelow_succ, ← List.append_assoc]
    exact ih.updateGpu count

theorem Paired.listing {t : LsmMonitor} {p : NvmlDevice × Nat} (h : Paired log monitor) (ht : Listing lib monitor p t) :
    Paired log t := by
  have hgpus := h.gpus.listing ht
  cases ht with
  | kept gpus hplaced hsame =>
    have hidentities := map_gpuStableIdentity_congr hsame
    refine ⟨hgpus, h.npus, ?_, h.ofDevice, h.npuTelemetry, h.owns, ?_, h.recorded⟩
    · show _ <+: gpus.map gpuStableIdentity
      rw [hidentities]
      exact h.gpuTelemetry
    · show _ <+: gpus.map gpuStableIdentity
      rw [hidentities]
      exact h.gpuStates
  | appended gpus card hunplaced hcard hnew hsame =>
    have hprefix : monitor.gpus.map gpuStableIdentity <+: gpus.map gpuStableIdentity := by
      have happend : gpus.map identifiers =
          (monitor.gpus ++ [({displayIdentifier := card, driver := nvmlDriver} : LsmGpuInfo)]).map identifiers := by
        rw [hsame, List.map_append]
        rfl
      rw [map_gpuStableIdentity_congr happend, List.map_append]
      exact List.prefix_append _ _
    exact ⟨hgpus, h.npus, h.gpuTelemetry.trans hprefix, h.ofDevice, h.npuTelemetry, h.owns, h.gpuStates.trans hprefix,
      h.recorded⟩

theorem Paired.nvml (h : Paired log monitor) (lib : Library) (report : Option NvmlReport) :
    Paired log (lsmNvmlRefresh lib report monitor) := by
  cases report with
  | none => exact h
  | some report =>
    unfold lsmNvmlRefresh
    dsimp only
    generalize report.devices.zipIdx = devices
    induction devices generalizing monitor with
    | nil => exact h
    | cons p rest ih => exact ih (h.listing (nvmlDevice_cases lib report.driverVersion monitor p))

end

/-- Every refresh that enumerates adapters lists each once. -/
def Action.Distinct : Action → Prop
  | .refresh input => input.toTopologyInput.Distinct
  | .update _ _ => True

theorem Paired.step {lib : Library} {log : List (Chars 512 × Option Nat)} {monitor t : LsmMonitor} {action : Action}
    (h : Paired log monitor) (hdistinct : action.Distinct) (hstep : (hardware lib).step monitor action = some t) :
    Paired (log ++ records lib monitor action) t := by
  cases action with
  | refresh input =>
    cases hstep
    rw [show records lib monitor (.refresh input) = [] from rfl, List.append_nil]
    exact h.refresh hdistinct
  | update reads report =>
    cases hstep
    exact (h.updateGpusBelow lib reads monitor.gpus.length).nvml lib report

/-- **GPU and NPU telemetry stays with its device.** After any run of refreshes and
updates, whatever is enumerated or appended in it, the cache at an index is of the
adapter at that index, resolved below its own directory; each allocation of a cache
has one owner and none that is owned was released; and at any point of the next
update, a baseline that is found for an adapter is the last that was recorded for
its identity. -/
theorem telemetry_stays_with_device (lib : Library) (history : List Action) (monitor : LsmMonitor)
    (hdistinct : ∀ action ∈ history, action.Distinct) (hrun : (hardware lib).run {} history = some monitor) :
    (monitor.gpuTelemetry.length ≤ monitor.gpus.length ∧
      ∀ (index : Nat) gpu cache, monitor.gpus[index]? = some gpu → monitor.gpuTelemetry[index]? = some cache →
        cache.identity = gpuStableIdentity gpu ∧ Below (gpuBase gpu) cache.paths) ∧
    (monitor.npuTelemetry.length = monitor.npus.length ∧
      ∀ (index : Nat) npu cache, monitor.npus[index]? = some npu → monitor.npuTelemetry[index]? = some cache →
        cache.identity = npuStableIdentity npu) ∧
    ((ownedPointers monitor).Nodup ∧ monitor.heap.released.Nodup ∧
      ∀ pointer ∈ ownedPointers monitor, pointer ∉ monitor.heap.released) ∧
    ∀ reads count gpu state, gpu ∈ (updateGpusBelow lib reads count monitor).gpus →
      findGpuState (updateGpusBelow lib reads count monitor).gpuStates (gpuStableIdentity gpu) = some state →
      state.engineBusyInitialized = true →
      lastRecord ((hardware lib).trace (records lib) {} history ++ recordsBelow lib reads count monitor)
        (gpuStableIdentity gpu) = some (some state.previousEngineBusyNs) := by
  have h : Paired ([] ++ (hardware lib).trace (records lib) {} history) monitor := by
    apply (hardware lib).run_trace_invariant (records lib) (fun _ action => action.Distinct) Paired _ Paired.start _ hrun
    · intro log s action t hs hrule hstep
      exact hs.step hrule hstep
    · exact (hardware lib).admissible_of_forall (fun action haction _ => hdistinct action haction) _
  rw [List.nil_append] at h
  refine ⟨⟨?_, ?_⟩, ⟨?_, ?_⟩, ⟨h.owns.nodup, ?_, fun pointer hpointer => h.owns.live hpointer⟩, ?_⟩
  · have hlength := h.gpuTelemetry.length_le
    rwa [List.length_map, List.length_map] at hlength
  · intro index gpu cache hgpu hcache
    have hidentity := getElem?_of_prefix h.gpuTelemetry hcache hgpu
    refine ⟨hidentity, ?_⟩
    rw [gpuBase_eq (h.gpus.sourced gpu (List.mem_of_getElem? hgpu)), ← hidentity]
    exact h.ofDevice cache (List.mem_of_getElem? hcache)
  · have hlength := congrArg List.length h.npuTelemetry
    rwa [List.length_map, List.length_map] at hlength
  · intro index npu cache hnpu hcache
    exact getElem?_of_prefix (h.npuTelemetry ▸ List.prefix_refl _) hcache hnpu
  · exact h.owns.released_nodup
  · intro reads count gpu state _ hfind hinitialized
    have hupdate := h.updateGpusBelow lib reads count
    have hidentity : state.platformIdentity = gpuStableIdentity gpu := by simpa using List.find?_some hfind
    rw [← hidentity]
    exact hupdate.recorded state (List.mem_of_find?_eq_some hfind) hinitialized

instance (input : TopologyInput) : Decidable input.Distinct :=
  inferInstanceAs (Decidable (∀ records ∈ input.gpus, (records.map fun record => record.deviceSyspath.path).Nodup))

instance (action : Action) : Decidable action.Distinct :=
  match action with
  | .refresh input => inferInstanceAs (Decidable input.toTopologyInput.Distinct)
  | .update _ _ => .isTrue trivial

def renderRecord : LsmGpuRecord := ⟨printed (ascii "card0"), .empty, .empty, printed (ascii "unknown"),
  printed (ascii "/sys/devices/render"), by decide⟩

def displayRecord : LsmGpuRecord := ⟨printed (ascii "card1"), .empty, .empty, printed (ascii "unknown"),
  printed (ascii "/sys/devices/display"), by decide⟩

/-- A refresh that finds these adapters, with an engine counter below each. -/
def engineRefresh (gpus : Option (List LsmGpuRecord)) : RefreshInput where
  gpus
  batteries := some []
  npus := some []
  bluetoothDevices := some []
  sysfs _ := {engines := [ascii "/engine/rcs0/busy"]}
  npuCreated _ := false
  accessible _ := true

def engineReads (total : Nat) : UpdateReads where
  elapsed := 1
  readU64 _ := some total
  intelRefresh _ := none

/-- NVML appends an adapter; one enumeration fails and the next is in another order. -/
def reorderedHistory : List Action :=
  [.refresh (engineRefresh (some [renderRecord, displayRecord])),
    .update (engineReads 100) (some {devices := [{pciBusId := some (ascii "0:1:0.0")}]}),
    .refresh (engineRefresh none), .refresh (engineRefresh (some [displayRecord, renderRecord])),
    .update (engineReads 200) none]

theorem telemetry_stays_with_device_reordered : ∃ monitor, (hardware .documented).run {} reorderedHistory = some monitor ∧
    (monitor.gpus.map fun gpu => gpu.utilizationPercent) = [some (1 / 100000), some (1 / 100000)] ∧
    monitor.gpuTelemetry.length = 2 ∧
    (∀ (index : Nat) gpu cache, monitor.gpus[index]? = some gpu → monitor.gpuTelemetry[index]? = some cache →
      cache.identity = gpuStableIdentity gpu ∧ Below (gpuBase gpu) cache.paths) ∧
    ∀ pointer ∈ ownedPointers monitor, pointer ∉ monitor.heap.released := by
  have hend : ∃ monitor, (hardware .documented).run {} reorderedHistory = some monitor ∧
      (monitor.gpus.map fun gpu => gpu.utilizationPercent) = [some (1 / 100000), some (1 / 100000)] ∧
      monitor.gpuTelemetry.length = 2 :=
    (hardware .documented).run_decided (by decide +kernel)
  obtain ⟨monitor, hrun, hpercent, hlength⟩ := hend
  have hspec := telemetry_stays_with_device .documented reorderedHistory monitor (by decide) hrun
  exact ⟨monitor, hrun, hpercent, hlength, hspec.1.2, hspec.2.2.1.2.2⟩

end SystemMonitor.Hardware
