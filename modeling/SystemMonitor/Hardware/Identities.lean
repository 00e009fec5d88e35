import SystemMonitor.Hardware.Telemetry

/-! Which adapters can be listed, and that their identities keep them apart.

A DRM adapter is identified by a resolved path, an adapter that only NVML knows by
the name it was appended under; the two cannot be confused (`Sourced`). No step but
an enumeration changes an identity, and NVML appends none that is there
(`Identified.listing`). -/
namespace SystemMonitor.Hardware
open Lib

/-- What decides about the identity of an adapter. -/
abbrev identifiers (gpu : LsmGpuInfo) : Chars 512 × Chars 64 := (gpu.platformIdentity, gpu.displayIdentifier)

/-- A resolved path, or the card of an appended adapter. -/
def Sourced (gpu : LsmGpuInfo) : Prop :=
  gpu.platformIdentity.text.head? = some 47 ∨
    (gpu.platformIdentity = .empty ∧ gpu.displayIdentifier.text.head? = some 110)

/-- The listed adapters, each with an identity of its own. -/
structure Identified (gpus : List LsmGpuInfo) : Prop where
  sourced : ∀ gpu ∈ gpus, Sourced gpu
  distinct : (gpus.map gpuStableIdentity).Nodup

theorem ne_empty_of_head {n : Nat} {c : Chars n} {b : UInt8} (h : c.text.head? = some b) : c ≠ .empty := by
  intro hempty
  rw [hempty] at h
  cases h

theorem gpuStableIdentity_congr {a b : LsmGpuInfo} (h : identifiers a = identifiers b) :
    gpuStableIdentity a = gpuStableIdentity b := by
  obtain ⟨hplatform, hdisplay⟩ := Prod.mk.inj h
  simp only [gpuStableIdentity, hplatform, hdisplay]

theorem Sourced.congr {a b : LsmGpuInfo} (h : identifiers b = identifiers a) (ha : Sourced a) : Sourced b := by
  obtain ⟨hplatform, hdisplay⟩ := Prod.mk.inj h
  unfold Sourced at ha ⊢
  rwa [hplatform, hdisplay]

/-- The first byte of the identity tells which of the two it is. -/
theorem Sourced.head {gpu : LsmGpuInfo} (h : Sourced gpu) :
    (gpu.platformIdentity ≠ .empty ∧ gpuStableIdentity gpu = gpu.platformIdentity ∧
      (gpuStableIdentity gpu).text.head? = some 47) ∨
    (gpu.platformIdentity = .empty ∧ (gpuStableIdentity gpu).text = gpu.displayIdentifier.text ∧
      (gpuStableIdentity gpu).text.head? = some 110) := by
  rcases h with hpath | ⟨hempty, hcard⟩
  · have hne := ne_empty_of_head hpath
    have hidentity : gpuStableIdentity gpu = gpu.platformIdentity := if_neg hne
    exact Or.inl ⟨hne, hidentity, by rw [hidentity]; exact hpath⟩
  · have hidentity : (gpuStableIdentity gpu).text = gpu.displayIdentifier.text := by
      rw [gpuStableIdentity, if_pos hempty]
    exact Or.inr ⟨hempty, hidentity, by rw [hidentity]; exact hcard⟩

theorem Sourced.identity_ne_empty {gpu : LsmGpuInfo} (h : Sourced gpu) : gpuStableIdentity gpu ≠ .empty := by
  rcases h.head with ⟨-, -, hhead⟩ | ⟨-, -, hhead⟩
  · exact ne_empty_of_head hhead
  · exact ne_empty_of_head hhead

theorem map_gpuStableIdentity_congr {gpus other : List LsmGpuInfo}
    (h : other.map identifiers = gpus.map identifiers) :
    other.map gpuStableIdentity = gpus.map gpuStableIdentity := by
  induction gpus generalizing other with
  | nil => rw [List.map_eq_nil_iff.mp h]
  | cons gpu rest ih =>
    cases other with
    | nil => cases h
    | cons gpu' rest' =>
      obtain ⟨hhead, htail⟩ := List.cons.inj h
      rw [List.map_cons, List.map_cons, gpuStableIdentity_congr hhead, ih htail]

namespace Identified
variable {gpus : List LsmGpuInfo}

theorem nil : Identified [] := ⟨fun _ h => absurd h List.not_mem_nil, List.nodup_nil⟩

theorem congr {other : List LsmGpuInfo} (h : Identified gpus) (hsame : other.map identifiers = gpus.map identifiers) :
    Identified other where
  sourced gpu hgpu := by
    have hmem : identifiers gpu ∈ gpus.map identifiers := by
      rw [← hsame]
      exact List.mem_map_of_mem hgpu
    obtain ⟨old, hold, hidentifiers⟩ := List.mem_map.mp hmem
    exact (h.sourced old hold).congr hidentifiers.symm
  distinct := by
    rw [map_gpuStableIdentity_congr hsame]
    exact h.distinct

theorem perm {other : List LsmGpuInfo} (h : Identified gpus) (hperm : other.Perm gpus) : Identified other where
  sourced gpu hgpu := h.sourced gpu (hperm.mem_iff.mp hgpu)
  distinct := (hperm.map gpuStableIdentity).nodup_iff.mpr h.distinct

/-- An adapter of a card that no adapter shows. -/
theorem append (h : Identified gpus) {gpu : LsmGpuInfo} (hempty : gpu.platformIdentity = .empty)
    (hcard : gpu.displayIdentifier.text.head? = some 110)
    (hnew : ∀ old ∈ gpus, old.displayIdentifier ≠ gpu.displayIdentifier) : Identified (gpus ++ [gpu]) where
  sourced g hg := by
    rcases List.mem_append.mp hg with hold | hlast
    · exact h.sourced g hold
    · rw [List.mem_singleton.mp hlast]
      exact Or.inr ⟨hempty, hcard⟩
  distinct := by
    rw [List.map_append, List.map_singleton, List.nodup_append]
    refine ⟨h.distinct, List.nodup_singleton _, ?_⟩
    intro a ha b hb hab
    obtain ⟨old, hold, rfl⟩ := List.mem_map.mp ha
    rw [List.mem_singleton.mp hb] at hab
    have hsourced : Sourced gpu := Or.inr ⟨hempty, hcard⟩
    have hgpu : (gpuStableIdentity gpu).text = gpu.displayIdentifier.text := by rw [gpuStableIdentity, if_pos hempty]
    rcases (h.sourced old hold).head with ⟨-, -, hhead⟩ | ⟨-, htext, -⟩
    · rw [hab, hgpu, hcard] at hhead
      exact absurd hhead (by decide)
    · apply hnew old hold
      rw [hab, hgpu] at htext
      cases hold' : old.displayIdentifier
      cases hgpu' : gpu.displayIdentifier
      rw [hold', hgpu'] at htext
      congr
      exact htext.symm

end Identified

/-! ### Enumerations and reconciliation -/

theorem identifiers_reconcileGpu (old : List LsmGpuInfo) (gpu : LsmGpuInfo) :
    identifiers (reconcileGpu old gpu) = identifiers gpu := by
  unfold reconcileGpu
  split <;> rfl

/-- An enumeration that lists each device once. -/
def TopologyInput.Distinct (input : TopologyInput) : Prop :=
  ∀ records ∈ input.gpus, (records.map fun record => record.deviceSyspath.path).Nodup

theorem gpuStableIdentity_gpuInfo (record : LsmGpuRecord) (index : Nat) :
    gpuStableIdentity (gpuInfo record index) = record.deviceSyspath.path :=
  if_neg (ne_empty_of_head record.deviceSyspath.absolute)

theorem map_gpuStableIdentity_enumerate (records : List LsmGpuRecord) (gpus : List LsmGpuInfo) :
    (enumerateGpus (some records) gpus).map gpuStableIdentity = records.map fun record => record.deviceSyspath.path := by
  have hfun : (gpuStableIdentity ∘ fun p : LsmGpuRecord × Nat => gpuInfo p.1 p.2) =
      (fun record : LsmGpuRecord => record.deviceSyspath.path) ∘ Prod.fst := by
    funext p
    exact gpuStableIdentity_gpuInfo p.1 p.2
  rw [enumerateGpus, List.map_map, hfun, ← List.map_map, List.zipIdx_map_fst]

theorem Identified.enumerate {gpus : List LsmGpuInfo} (h : Identified gpus) {input : TopologyInput}
    (hdistinct : input.Distinct) : Identified (enumerateGpus input.gpus gpus) := by
  cases hrecords : input.gpus with
  | none => exact h
  | some records =>
    constructor
    · intro gpu hgpu
      obtain ⟨p, -, rfl⟩ := List.mem_map.mp hgpu
      exact Or.inl p.1.deviceSyspath.absolute
    · rw [map_gpuStableIdentity_enumerate]
      exact hdistinct records hrecords

/-- The lists a refresh publishes. -/
theorem Identified.refresh (lib : Library) {monitor : LsmMonitor} (h : Identified monitor.gpus) {input : TopologyInput}
    (hdistinct : input.Distinct) :
    Identified (lsmHardwareTopologyReconcile monitor (discovered lib input monitor)).1.gpus := by
  have hperm : (discovered lib input monitor).gpus.Perm (enumerateGpus input.gpus monitor.gpus) := lib.qsort_perm _ _
  apply ((h.enumerate hdistinct).perm hperm).congr
  rw [lsmHardwareTopologyReconcile, List.map_map]
  apply List.map_congr_left
  intro gpu _
  exact identifiers_reconcileGpu _ gpu

/-! ### NVML -/

theorem head_printed {n : Nat} (b : UInt8) (hb : b ≠ 0) (rest : Text) : (printed (n := n + 2) (b :: rest)).text.head? = some b := by
  have htake : (b :: rest).takeWhile (· != 0) = b :: rest.takeWhile (· != 0) := by simp [hb]
  show (((b :: rest).takeWhile (· != 0)).take (n + 1)).head? = some b
  rw [htake]
  rfl

theorem nvmlCard_head (lib : Library) (index : Nat) (device : NvmlDevice) :
    (nvmlCard lib index device).text.head? = some 110 := by
  unfold nvmlCard
  split
  · exact head_printed 110 (by decide) _
  · exact head_printed 110 (by decide) _

/-- The device has an adapter in the list, or the list has no room for one. -/
def Placed (lib : Library) (monitor : LsmMonitor) (p : NvmlDevice × Nat) : Prop :=
  p.1.answers = true → (matchedGpu lib monitor.gpus p.2 p.1).isSome = true ∨
    (∃ gpu ∈ monitor.gpus, gpu.displayIdentifier = nvmlCard lib p.2 p.1) ∨ lsmMaxGpus ≤ monitor.gpus.length

/-- What one NVML device does to the list: nothing to identities, or one more. -/
inductive Listing (lib : Library) (monitor : LsmMonitor) (p : NvmlDevice × Nat) : LsmMonitor → Prop where
  | kept (gpus : List LsmGpuInfo) (hplaced : Placed lib monitor p)
    (hsame : gpus.map identifiers = monitor.gpus.map identifiers) : Listing lib monitor p {monitor with gpus}
  | appended (gpus : List LsmGpuInfo) (card : Chars 64) (hunplaced : ¬ Placed lib monitor p)
    (hcard : card.text.head? = some 110) (hnew : ∀ old ∈ monitor.gpus, old.displayIdentifier ≠ card)
    (hsame : gpus.map identifiers = monitor.gpus.map identifiers ++ [(.empty, card)]) :
    Listing lib monitor p {monitor with gpus, topologyGeneration := monitor.topologyGeneration + 1}

theorem map_identifiers_modify (gpus : List LsmGpuInfo) (i : Nat) (driverVersion : Text) (device : NvmlDevice) :
    (gpus.modify i (nvmlFields driverVersion device)).map identifiers = gpus.map identifiers := by
  induction gpus generalizing i with
  | nil => cases i <;> rfl
  | cons gpu rest ih =>
    cases i with
    | zero => rfl
    | succ i => rw [List.modify_succ_cons, List.map_cons, List.map_cons, ih]

theorem nvmlDevice_cases (lib : Library) (driverVersion : Text) (monitor : LsmMonitor) (p : NvmlDevice × Nat) :
    Listing lib monitor p (nvmlDevice lib driverVersion monitor p.1 p.2) := by
  unfold nvmlDevice
  by_cases hanswers : p.1.answers = true
  · rw [if_pos hanswers]
    unfold gpuForNvmlDevice
    cases hmatched : matchedGpu lib monitor.gpus p.2 p.1 with
    | some i => exact .kept _ (fun _ => Or.inl (by rw [hmatched]; rfl)) (map_identifiers_modify ..)
    | none =>
      unfold appendNvmlGpu
      cases hfind : monitor.gpus.findIdx? fun gpu => gpu.displayIdentifier = nvmlCard lib p.2 p.1 with
      | some i =>
        obtain ⟨hi, hshown, -⟩ := List.findIdx?_eq_some_iff_getElem.mp hfind
        refine .kept _ (fun _ => Or.inr (Or.inl ⟨_, List.getElem_mem hi, of_decide_eq_true hshown⟩)) ?_
        exact map_identifiers_modify ..
      | none =>
        have hnew : ∀ old ∈ monitor.gpus, old.displayIdentifier ≠ nvmlCard lib p.2 p.1 := by
          intro old hold
          simpa using List.findIdx?_eq_none_iff.mp hfind old hold
        by_cases hfull : lsmMaxGpus ≤ monitor.gpus.length
        · simp only [if_pos hfull]
          exact .kept _ (fun _ => Or.inr (Or.inr hfull)) rfl
        · simp only [if_neg hfull]
          refine .appended _ (nvmlCard lib p.2 p.1) ?_ (nvmlCard_head lib p.2 p.1) hnew ?_
          · intro hplaced
            rcases hplaced hanswers with hsome | ⟨gpu, hgpu, hshown⟩ | hlist
            · rw [hmatched] at hsome
              cases hsome
            · exact hnew gpu hgpu hshown
            · exact hfull hlist
          · rw [map_identifiers_modify, List.map_append]
            rfl
  · rw [if_neg hanswers]
    exact .kept _ (fun h => absurd h hanswers) rfl

theorem Identified.listing {lib : Library} {monitor t : LsmMonitor} {p : NvmlDevice × Nat}
    (h : Identified monitor.gpus) (ht : Listing lib monitor p t) : Identified t.gpus := by
  cases ht with
  | kept gpus hplaced hsame => exact h.congr hsame
  | appended gpus card hunplaced hcard hnew hsame =>
    have happend : Identified (monitor.gpus ++ [{displayIdentifier := card, driver := nvmlDriver}]) :=
      h.append rfl hcard hnew
    apply happend.congr
    rw [hsame, List.map_append]
    rfl

end SystemMonitor.Hardware
