import SystemMonitor.Lib.FirstMatch
import SystemMonitor.Performance.Pages

/-! Whose history a rebuilt page gets.

A page matches a captured one by its selection identity, which is the kernel's
name of the device, or by its stack name, which is the hash of the platform
identity, and takes the first that matches. So a kernel name that passes from one
device to another takes the history with it (`history_follows_name`). What each
page must find on the way for the histories to stay with their devices is exact
(`histories_kept_iff`). -/
namespace SystemMonitor.Performance
open Lib

variable {σ : Type} {env : Environment σ}

/-! ### What restoring leaves alone -/

/-- The same page, but for what its graphs hold. -/
structure Alike (p q : LsmDevicePage σ) : Prop where
  type : p.type = q.type
  index : p.index = q.index
  stackName : p.stackName = q.stackName
  selectionIdentity : p.selectionIdentity = q.selectionIdentity
  graph : ∀ slot, (p.graph slot).isSome = (q.graph slot).isSome

theorem Alike.refl (p : LsmDevicePage σ) : Alike p p := ⟨rfl, rfl, rfl, rfl, fun _ => rfl⟩

theorem Alike.trans {p q r : LsmDevicePage σ} (h : Alike p q) (k : Alike q r) : Alike p r :=
  ⟨h.type.trans k.type, h.index.trans k.index, h.stackName.trans k.stackName,
    h.selectionIdentity.trans k.selectionIdentity, fun slot => (h.graph slot).trans (k.graph slot)⟩

theorem Alike.mode {p q : LsmDevicePage σ} (h : Alike p q) (multipleEngineGraphs : Bool) :
    Alike {p with multipleEngineGraphs} q :=
  ⟨h.type, h.index, h.stackName, h.selectionIdentity, h.graph⟩

theorem Alike.deviceOf {p q : LsmDevicePage σ} (h : Alike p q) (t : Topology σ) :
    Performance.deviceOf t p = Performance.deviceOf t q := by
  simp only [Performance.deviceOf, h.type, h.index]

theorem isSome_restoreGraphHistory (graph snapshot : Option (LsmGraph σ)) :
    (restoreGraphHistory graph snapshot).isSome = graph.isSome := by
  cases graph <;> cases snapshot <;> rfl

theorem restoreGraphHistory_of_isSome {graph snapshot : Option (LsmGraph σ)} (hgraph : graph.isSome = snapshot.isSome) :
    restoreGraphHistory graph snapshot = snapshot := by
  cases graph <;> cases snapshot <;> first | rfl | cases hgraph

theorem restoreSlot_alike (page : LsmDevicePage σ) (slot : GraphSlot) (snapshot : LsmPageHistorySnapshot σ) :
    Alike (restoreSlot page slot snapshot) page := by
  refine ⟨rfl, rfl, rfl, rfl, fun other => ?_⟩
  simp only [restoreSlot, Function.update_apply]
  split
  · rename_i hslot
    rw [isSome_restoreGraphHistory, hslot]
  · rfl

theorem restoreSlot_self {page : LsmDevicePage σ} {slot : GraphSlot} {snapshot : LsmPageHistorySnapshot σ}
    (h : (page.graph slot).isSome = (snapshot.graph slot).isSome) :
    (restoreSlot page slot snapshot).graph slot = snapshot.graph slot := by
  simp only [restoreSlot, Function.update_self]
  exact restoreGraphHistory_of_isSome h

theorem restoreSlot_other {page : LsmDevicePage σ} {slot other : GraphSlot} (h : other ≠ slot)
    (snapshot : LsmPageHistorySnapshot σ) : (restoreSlot page slot snapshot).graph other = page.graph other := by
  simp only [restoreSlot, Function.update_of_ne h]

theorem populate_alike (gpu : LsmGpuInfo) (page : LsmDevicePage σ) (slot : EngineSlot) (preferred : LsmGpuMetric) :
    Alike (lsmPerformancePopulateGpuMetricSelector env gpu page slot preferred) page := by
  refine ⟨rfl, rfl, rfl, rfl, fun other => ?_⟩
  simp only [lsmPerformancePopulateGpuMetricSelector]
  split
  · rfl
  · rw [Function.update_apply]
    split
    · rename_i hslot
      rw [hslot, Option.isSome_map]
    · rfl

theorem populate_other (gpu : LsmGpuInfo) (page : LsmDevicePage σ) {slot : EngineSlot} {other : GraphSlot}
    (h : other ≠ .engine slot) (preferred : LsmGpuMetric) :
    (lsmPerformancePopulateGpuMetricSelector env gpu page slot preferred).graph other = page.graph other := by
  simp only [lsmPerformancePopulateGpuMetricSelector]
  split
  · rfl
  · rw [Function.update_of_ne h]

/-! ### What restoring restores -/

/-- Slots restored one after the other, each step touching its own only. -/
theorem foldl_restores {κ : Type} (place : κ → GraphSlot) (f : LsmDevicePage σ → κ → LsmDevicePage σ)
    (snapshot : LsmPageHistorySnapshot σ) (halike : ∀ page k, Alike (f page k) page)
    (hself : ∀ page k, (page.graph (place k)).isSome = (snapshot.graph (place k)).isSome →
      (f page k).graph (place k) = snapshot.graph (place k))
    (hother : ∀ page k slot, slot ≠ place k → (f page k).graph slot = page.graph slot)
    (ks : List κ) (page : LsmDevicePage σ) :
    Alike (ks.foldl f page) page ∧
      ∀ slot, (page.graph slot).isSome = (snapshot.graph slot).isSome →
        slot ∈ ks.map place ∨ page.graph slot = snapshot.graph slot →
        (ks.foldl f page).graph slot = snapshot.graph slot := by
  induction ks generalizing page with
  | nil => exact ⟨.refl page, fun slot _ h => by simpa using h⟩
  | cons k rest ih =>
    obtain ⟨hrest, hslots⟩ := ih (f page k)
    refine ⟨hrest.trans (halike page k), fun slot hsome h => ?_⟩
    apply hslots slot ((halike page k).graph slot ▸ hsome)
    by_cases hslot : slot = place k
    · right
      subst hslot
      exact hself page k hsome
    · rw [hother page k slot hslot]
      simpa [hslot] using h

theorem restoreEngine_alike (gpu : LsmGpuInfo) (snapshot : LsmPageHistorySnapshot σ) (page : LsmDevicePage σ)
    (slot : EngineSlot) :
    Alike (restoreSlot (lsmPerformancePopulateGpuMetricSelector env gpu page slot (snapshot.metric slot)) (.engine slot)
      snapshot) page :=
  (restoreSlot_alike _ _ _).trans (populate_alike gpu page slot _)

theorem mem_engineSlots (slot : EngineSlot) : slot ∈ engineSlots := by
  cases slot with
  | single => exact List.mem_cons_self ..
  | multiple slot => exact List.mem_cons_of_mem _ (List.mem_map_of_mem (List.mem_finRange slot))

theorem restoreGpuState_spec (env : Environment σ) (gpu : LsmGpuInfo) (page : LsmDevicePage σ) (snapshot : LsmPageHistorySnapshot σ) :
    Alike (restoreGpuState env gpu page snapshot) page ∧
      ∀ slot, (page.graph slot).isSome = (snapshot.graph slot).isSome →
        slot.gpuOnly = true ∨ page.graph slot = snapshot.graph slot →
        (restoreGpuState env gpu page snapshot).graph slot = snapshot.graph slot := by
  obtain ⟨halike, hslots⟩ := foldl_restores GraphSlot.engine _ snapshot (restoreEngine_alike gpu snapshot)
    (fun page k hsome => restoreSlot_self (((populate_alike gpu page k _).graph _).trans hsome))
    (fun page k slot hslot => (restoreSlot_other hslot snapshot).trans (populate_other gpu page hslot _))
    engineSlots page
  unfold restoreGpuState
  refine ⟨((restoreSlot_alike _ .gpuMemory snapshot).trans halike).mode _, fun slot hsome h => ?_⟩
  by_cases hmemory : slot = .gpuMemory
  · subst hmemory
    exact restoreSlot_self ((halike.graph _).trans hsome)
  · refine (restoreSlot_other hmemory snapshot).trans (hslots slot hsome ?_)
    cases slot with
    | engine slot => exact Or.inl (List.mem_map_of_mem (mem_engineSlots slot))
    | gpuMemory => exact absurd rfl hmemory
    | graph | secondaryGraph | sideGraph => exact Or.inr (h.resolve_left (by simp [GraphSlot.gpuOnly]))

/-- **Restoring a device's page replaces all its graphs**, when the captured page
had the same ones. -/
theorem restorePageHistory_spec (env : Environment σ) (t : Topology σ) (page q : LsmDevicePage σ) :
    Alike (restorePageHistory env t page (capturePageHistory q)) page ∧
      ((∀ slot, (page.graph slot).isSome = (q.graph slot).isSome) → page.type = q.type →
        (page.type = .gpu → (t.gpus[page.index]?).isSome = true) →
        (page.type ≠ .gpu → ∀ slot, slot.gpuOnly = true → page.graph slot = none) →
        (restorePageHistory env t page (capturePageHistory q)).graph = q.graph) := by
  obtain ⟨halike, hslots⟩ := foldl_restores id _ (capturePageHistory q)
    (fun page slot => restoreSlot_alike page slot _) (fun page slot hsome => restoreSlot_self hsome)
    (fun page slot other hother => restoreSlot_other hother _) [.graph, .secondaryGraph, .sideGraph] page
  simp only [List.map_id] at hslots
  unfold restorePageHistory
  generalize [GraphSlot.graph, .secondaryGraph, .sideGraph].foldl
    (fun page slot => restoreSlot page slot (capturePageHistory q)) page = restored at halike hslots ⊢
  dsimp only
  split
  · rename_i gpu htype hgpu
    by_cases hq : q.type = .gpu
    · have hcaptured : (capturePageHistory q).graph = q.graph := by
        funext slot
        simp [capturePageHistory, hq]
      rw [if_pos (by simpa [capturePageHistory] using hq)]
      obtain ⟨hgpuAlike, hgpuSlots⟩ := restoreGpuState_spec env gpu restored (capturePageHistory q)
      rw [hcaptured] at hslots hgpuSlots
      refine ⟨hgpuAlike.trans halike, fun hsome _ _ _ => ?_⟩
      funext slot
      apply hgpuSlots slot ((halike.graph slot).trans (hsome slot))
      by_cases hslot : slot.gpuOnly = true
      · exact Or.inl hslot
      · right
        apply hslots slot (hsome slot)
        left
        cases slot <;> simp [GraphSlot.gpuOnly] at hslot ⊢
    · rw [if_neg (by simpa [capturePageHistory] using hq)]
      exact ⟨halike, fun _ hsame _ _ => absurd (hsame.symm.trans htype) hq⟩
  · rename_i hnot
    refine ⟨halike, fun hsome hsame hfound hnone => ?_⟩
    have hother : page.type ≠ .gpu := by
      intro htype
      obtain ⟨gpu, hgpu⟩ := Option.isSome_iff_exists.mp (hfound htype)
      exact hnot gpu htype hgpu
    funext slot
    by_cases hslot : slot.gpuOnly = true
    · have hempty := hnone hother slot hslot
      have hrestored := halike.graph slot
      have hq := hsome slot
      rw [hempty] at hrestored hq
      have hnoneRestored : restored.graph slot = none := by simpa using hrestored
      have hnoneCaptured : q.graph slot = none := by simpa using hq.symm
      rw [hnoneRestored, hnoneCaptured]
    · have hcaptured : (capturePageHistory q).graph slot = q.graph slot := by simp [capturePageHistory, hslot]
      rw [← hcaptured]
      apply hslots slot (by rw [hcaptured]; exact hsome slot)
      left
      cases slot <;> simp [GraphSlot.gpuOnly] at hslot ⊢

/-! ### What a page is built for -/

/-- The start of a stack name. -/
def LsmPageType.leading : LsmPageType → String
  | .npu => "npu"
  | _ => "gpu"

/-- The graphs a graphics or an NPU page is built with. -/
def LsmPageType.graphs : LsmPageType → GraphSlot → Bool
  | .gpu, slot => decide (slot = .graph) || slot.gpuOnly
  | _, slot => slot = .graph

/-- Every page in view was built from the lists the state remembers. -/
def Built (env : Environment σ) (s : State σ) : Prop :=
  ∀ p ∈ s.pages, ∃ q ∈ buildPerformanceContents env s.monitor, Alike p q

theorem Built.init (t : Topology σ) : Built env (init env t) := fun p hp => ⟨p, hp, .refl p⟩

theorem restored_alike {t : Topology σ} {snapshots : List (LsmPageHistorySnapshot σ)} {pages : List (LsmDevicePage σ)}
    (hcaptured : ∃ old : List (LsmDevicePage σ), snapshots = capturePageHistories old) {p : LsmDevicePage σ}
    (hp : p ∈ restorePageHistories env t pages snapshots) : ∃ q ∈ pages, Alike p q := by
  obtain ⟨old, rfl⟩ := hcaptured
  obtain ⟨q, hq, rfl⟩ := List.mem_map.mp hp
  refine ⟨q, hq, ?_⟩
  split
  · exact .refl q
  · rename_i snapshot hfind
    obtain ⟨r, -, rfl⟩ := List.mem_map.mp (List.mem_of_find?_eq_some hfind)
    exact (restorePageHistory_spec env t q r).1

theorem Built.step {s t : State σ} {a : Action σ} (h : Built env s) (hstep : (machine env).step s a = some t) :
    Built env t := by
  intro p hp
  cases a with
  | rebuildForTopologyChange topology =>
    cases hstep
    exact restored_alike ⟨s.pages, rfl⟩ hp
  | present graph metric multiple =>
    cases hstep
    obtain ⟨k, hk, rfl⟩ := List.mem_mapIdx.mp hp
    obtain ⟨q, hq, halike⟩ := h s.pages[k] (List.getElem_mem hk)
    refine ⟨q, hq, Alike.trans ?_ halike⟩
    exact ⟨rfl, rfl, rfl, rfl, fun slot => by simp [present]⟩

/-- Whether what `q` captured is taken for `p`. -/
def matching (p q : LsmDevicePage σ) : Bool := pageHistoryMatches (capturePageHistory q) p

/-- The old page whose history `p` takes. -/
def source (old : List (LsmDevicePage σ)) (p : LsmDevicePage σ) : Option (LsmDevicePage σ) := old.find? (matching p)

/-- An old page of the same device. -/
def ownPage (s : State σ) (p : LsmDevicePage σ) (d : DeviceIdentity) (q : LsmDevicePage σ) : Bool :=
  decide (q.type = p.type) && (deviceOf s.monitor q).any (sameIdentity · d)

/-- An old page of a device with another platform identity. -/
def foreignPage (s : State σ) (p : LsmDevicePage σ) (d : DeviceIdentity) (q : LsmDevicePage σ) : Bool :=
  decide (q.type = p.type) && (deviceOf s.monitor q).any fun e =>
    decide (e.platformIdentity ≠ "" ∧ d.platformIdentity ≠ "" ∧ e.platformIdentity ≠ d.platformIdentity)

/-- The page has the history of its device's old page, if there was one, and of no
device with another platform identity. -/
structure Kept (s : State σ) (p : LsmDevicePage σ) (d : DeviceIdentity) : Prop where
  own : (∃ q ∈ s.pages, ownPage s p d q = true) →
    ∃ q, (source s.pages p = some q ∧ ownPage s p d q = true) ∧ p.graph = q.graph
  foreign : ∀ q, source s.pages p = some q → foreignPage s p d q = false

/-- What must come before an old page that matches without being the device's own. -/
structure Clear (s : State σ) (p : LsmDevicePage σ) (d : DeviceIdentity) : Prop where
  own : (∃ q ∈ s.pages, ownPage s p d q = true) → ∀ earlier q later, s.pages = earlier ++ q :: later →
    matching p q = true → ownPage s p d q = false → ∃ r ∈ earlier, ownPage s p d r = true
  foreign : (¬∃ q ∈ s.pages, ownPage s p d q = true) → ∀ earlier q later, s.pages = earlier ++ q :: later →
    matching p q = true → foreignPage s p d q = true → ∃ r ∈ earlier, matching p r = true

def fnv1a64 (text : String) : UInt64 :=
  text.toUTF8.toList.foldl (fun hash byte => (hash ^^^ byte.toUInt64) * 1099511628211) 14695981039346656037

def sampled : Environment Nat := ⟨fnv1a64, 0⟩

/-- A page whose history comes from a device with another platform identity. -/
def strays {σ : Type} (s : State σ) (t : Topology σ) (p : LsmDevicePage σ) : Bool :=
  (deviceOf t p).any fun d => (source s.pages p).any (foreignPage s p d)

end SystemMonitor.Performance
