import SystemMonitor.Lib.Machine

/-! The Performance pages and the histories a topology rebuild carries over.

A rebuild captures the graphs of every page, destroys the pages, builds new ones
from the monitor's current lists and gives each new page what it captured from
the first old page that matches it. Processor, memory, disk, network, Bluetooth
and battery pages are given as they are built; graphics and NPU pages are built
here. -/
namespace SystemMonitor.Performance
open Lib

inductive LsmPageType where
  | cpu
  | memory
  | disk
  | network
  | bluetooth
  | gpu
  | battery
  | npu
  deriving DecidableEq

inductive LsmGpuMetric where
  | overall
  | render
  | compute
  | video
  | videoEnhance
  | copy
  | memoryBusy
  | encoder
  | decoder
  deriving DecidableEq

/-- What names a graphics adapter or an NPU. Discovery always gives it a display
identifier; a platform identity may be missing. -/
structure DeviceIdentity where
  displayIdentifier : String
  platformIdentity : String
  displayed : displayIdentifier ≠ ""

structure LsmGpuInfo extends DeviceIdentity where
  /-- The `*_available` flags. -/
  available : LsmGpuMetric → Bool

structure LsmNpuInfo extends DeviceIdentity

/-- `same_gpu_identity` and `same_npu_identity`. -/
def sameIdentity (left right : DeviceIdentity) : Bool :=
  if left.platformIdentity ≠ "" ∧ right.platformIdentity ≠ "" then
    left.platformIdentity = right.platformIdentity
  else left.displayIdentifier = right.displayIdentifier

/-! ### Graphs -/

def lsmGpuGraphSlotCount : Nat := 4

/-- The single engine graph, or one of the four. -/
inductive EngineSlot where
  | single
  | multiple (slot : Fin lsmGpuGraphSlotCount)
  deriving DecidableEq

/-- The graphs a page may have. -/
inductive GraphSlot where
  | graph
  | secondaryGraph
  | sideGraph
  | engine (slot : EngineSlot)
  | gpuMemory
  deriving DecidableEq

/-- Those in the widgets of a graphics page. -/
def GraphSlot.gpuOnly : GraphSlot → Bool
  | .engine _ | .gpuMemory => true
  | _ => false

structure LsmGraph (σ : Type) where
  primary : σ
  secondary : σ

structure LsmDevicePage (σ : Type) where
  type : LsmPageType
  /-- Into the monitor's list of such devices. -/
  index : Nat
  stackName : String
  selectionIdentity : String
  graph : GraphSlot → Option (LsmGraph σ)
  metric : EngineSlot → LsmGpuMetric
  multipleEngineGraphs : Bool

/-- `graph`, as the other captured graphs, is there when the page had it. -/
structure LsmPageHistorySnapshot (σ : Type) where
  type : LsmPageType
  stackName : String
  selectionIdentity : String
  graph : GraphSlot → Option (LsmGraph σ)
  gpuStatePresent : Bool
  metric : EngineSlot → LsmGpuMetric
  multipleEngineGraphs : Bool

/-- A page that is neither a graphics nor an NPU page. -/
structure OtherPage (σ : Type) where
  page : LsmDevicePage σ
  other : page.type ≠ .gpu ∧ page.type ≠ .npu

/-- The monitor's lists: the pages before the graphics adapters, the adapters, the
battery pages and the NPUs. -/
structure Topology (σ : Type) where
  leading : List (OtherPage σ)
  gpus : List LsmGpuInfo
  batteries : List (OtherPage σ)
  npus : List LsmNpuInfo

/-- The list entry a page stands for. -/
def deviceOf {σ : Type} (t : Topology σ) (p : LsmDevicePage σ) : Option DeviceIdentity :=
  match p.type with
  | .gpu => t.gpus[p.index]?.map (·.toDeviceIdentity)
  | .npu => t.npus[p.index]?.map (·.toDeviceIdentity)
  | _ => none

/-! ### Metrics -/

def detailedMetricOrder : List LsmGpuMetric :=
  [.render, .compute, .video, .videoEnhance, .copy, .encoder, .decoder, .memoryBusy]

def lsmGpuSelectableMetrics (gpu : LsmGpuInfo) : List LsmGpuMetric :=
  detailedMetricOrder.filter gpu.available ++ if gpu.available .overall then [.overall] else []

/-- Filled up with the first one. -/
def lsmGpuDefaultMetrics (gpu : LsmGpuInfo) (slot : Fin lsmGpuGraphSlotCount) : LsmGpuMetric :=
  let metrics := lsmGpuSelectableMetrics gpu
  (metrics[slot.val]?).getD (metrics.head?.getD .overall)

/-- What a selector shows when asked for `preferred`. -/
def selectedMetric (gpu : LsmGpuInfo) (preferred : LsmGpuMetric) : LsmGpuMetric :=
  let choices := lsmGpuSelectableMetrics gpu
  if choices.contains preferred then preferred else choices.head?.getD .overall

/-! ### Building -/

/-- What pages take from elsewhere: the hash of a text and a history without samples. -/
structure Environment (σ : Type) where
  stableIdentityHash : String → UInt64
  emptyHistory : σ

section Building
variable {σ : Type} (env : Environment σ)

def emptyGraph : LsmGraph σ := ⟨env.emptyHistory, env.emptyHistory⟩

/-- `%016llx`. -/
def hexadecimal (n : UInt64) : String :=
  let digits := Nat.toDigits 16 n.toNat
  String.ofList (List.replicate (16 - digits.length) '0' ++ digits)

def performanceStableStackName (leading primary fallback : String) : String :=
  leading ++ "-" ++ hexadecimal (env.stableIdentityHash (if primary ≠ "" then primary else fallback))

def performanceNewPage (type : LsmPageType) (index : Nat) (stackName buttonIdentifier : String)
    (graphs : GraphSlot → Bool) (metric : EngineSlot → LsmGpuMetric) : LsmDevicePage σ :=
  { type
    index
    stackName
    selectionIdentity := if buttonIdentifier ≠ "" then buttonIdentifier else stackName
    graph := fun slot => if graphs slot then some (emptyGraph env) else none
    metric
    multipleEngineGraphs := true }

def performanceBuildGpuPage (index : Nat) (gpu : LsmGpuInfo) : LsmDevicePage σ :=
  performanceNewPage env .gpu index
    (performanceStableStackName env "gpu" gpu.platformIdentity gpu.displayIdentifier) gpu.displayIdentifier (fun slot => slot = .graph || slot.gpuOnly) fun
      | .single => selectedMetric gpu (lsmGpuDefaultMetrics gpu ⟨0, by decide⟩)
      | .multiple slot => selectedMetric gpu (lsmGpuDefaultMetrics gpu slot)

def performanceBuildNpuPage (index : Nat) (npu : LsmNpuInfo) : LsmDevicePage σ :=
  performanceNewPage env .npu index
    (performanceStableStackName env "npu" npu.platformIdentity npu.displayIdentifier) npu.displayIdentifier (· = .graph) fun _ => .overall

def buildPerformanceContents (t : Topology σ) : List (LsmDevicePage σ) :=
  t.leading.map (·.page) ++ t.gpus.mapIdx (performanceBuildGpuPage env) ++
    t.batteries.map (·.page) ++ t.npus.mapIdx (performanceBuildNpuPage env)

end Building

/-! ### Capturing and restoring -/

section Restoring
variable {σ : Type} (env : Environment σ)

def pageHistoryMatches (snapshot : LsmPageHistorySnapshot σ) (page : LsmDevicePage σ) : Bool :=
  decide (snapshot.type = page.type) &&
    (decide (snapshot.selectionIdentity ≠ "" ∧ page.selectionIdentity ≠ "" ∧
      snapshot.selectionIdentity = page.selectionIdentity) ||
      decide (snapshot.stackName = page.stackName))

def findPageHistory (snapshots : List (LsmPageHistorySnapshot σ)) (page : LsmDevicePage σ) :
    Option (LsmPageHistorySnapshot σ) :=
  snapshots.find? fun snapshot => pageHistoryMatches snapshot page

def capturePageHistory (page : LsmDevicePage σ) : LsmPageHistorySnapshot σ where
  type := page.type
  stackName := page.stackName
  selectionIdentity := page.selectionIdentity
  graph := fun slot => if slot.gpuOnly && decide (page.type ≠ .gpu) then none else page.graph slot
  gpuStatePresent := page.type = .gpu
  metric := page.metric
  multipleEngineGraphs := page.multipleEngineGraphs

def capturePageHistories (pages : List (LsmDevicePage σ)) : List (LsmPageHistorySnapshot σ) :=
  pages.map capturePageHistory

def restoreGraphHistory (graph snapshot : Option (LsmGraph σ)) : Option (LsmGraph σ) :=
  match graph, snapshot with
  | some _, some captured => some captured
  | graph, _ => graph

/-- A selector that changes its metric clears its graph. -/
def lsmPerformancePopulateGpuMetricSelector (gpu : LsmGpuInfo) (page : LsmDevicePage σ) (slot : EngineSlot)
    (preferred : LsmGpuMetric) : LsmDevicePage σ :=
  let selected := selectedMetric gpu preferred
  {page with
    metric := Function.update page.metric slot selected
    graph := if page.metric slot = selected then page.graph
      else Function.update page.graph (.engine slot) ((page.graph (.engine slot)).map fun _ => emptyGraph env)}

def engineSlots : List EngineSlot :=
  .single :: (List.finRange lsmGpuGraphSlotCount).map .multiple

def restoreSlot (page : LsmDevicePage σ) (slot : GraphSlot) (snapshot : LsmPageHistorySnapshot σ) : LsmDevicePage σ :=
  {page with graph := Function.update page.graph slot (restoreGraphHistory (page.graph slot) (snapshot.graph slot))}

/-- Restoring the widgets of a graphics page. -/
def restoreGpuState (gpu : LsmGpuInfo) (page : LsmDevicePage σ) (snapshot : LsmPageHistorySnapshot σ) :
    LsmDevicePage σ :=
  let engines := engineSlots.foldl (fun page slot =>
    restoreSlot (lsmPerformancePopulateGpuMetricSelector env gpu page slot (snapshot.metric slot)) (.engine slot) snapshot)
    page
  {restoreSlot engines .gpuMemory snapshot with multipleEngineGraphs := snapshot.multipleEngineGraphs}

def restorePageHistory (t : Topology σ) (page : LsmDevicePage σ) (snapshot : LsmPageHistorySnapshot σ) :
    LsmDevicePage σ :=
  let restored := [.graph, .secondaryGraph, .sideGraph].foldl (fun page slot => restoreSlot page slot snapshot) page
  match page.type, t.gpus[page.index]? with
  | .gpu, some gpu => if snapshot.gpuStatePresent then restoreGpuState env gpu restored snapshot else restored
  | _, _ => restored

def restorePageHistories (t : Topology σ) (pages : List (LsmDevicePage σ))
    (snapshots : List (LsmPageHistorySnapshot σ)) : List (LsmDevicePage σ) :=
  pages.map fun page =>
    match findPageHistory snapshots page with
    | none => page
    | some snapshot => restorePageHistory env t page snapshot

end Restoring

/-! ### The machine -/

section Runs
variable {σ : Type} (env : Environment σ)

structure State (σ : Type) where
  pages : List (LsmDevicePage σ)
  /-- The lists the pages were built from. -/
  monitor : Topology σ

def init (t : Topology σ) : State σ := ⟨buildPerformanceContents env t, t⟩

def rebuildForTopologyChange (s : State σ) (t : Topology σ) : State σ :=
  ⟨restorePageHistories env t (buildPerformanceContents env t) (capturePageHistories s.pages), t⟩

inductive Action (σ : Type) where
  | rebuildForTopologyChange (t : Topology σ)
  /-- What samples and the user make of the graphs of each page. -/
  | present (graph : Nat → GraphSlot → LsmGraph σ → LsmGraph σ) (metric : Nat → EngineSlot → LsmGpuMetric)
    (multipleEngineGraphs : Nat → Bool)

def present (graph : Nat → GraphSlot → LsmGraph σ → LsmGraph σ) (metric : Nat → EngineSlot → LsmGpuMetric)
    (multipleEngineGraphs : Nat → Bool) (k : Nat) (page : LsmDevicePage σ) : LsmDevicePage σ :=
  {page with
    graph := fun slot => (page.graph slot).map (graph k slot)
    metric := metric k
    multipleEngineGraphs := multipleEngineGraphs k}

def step (s : State σ) : Action σ → Option (State σ)
  | .rebuildForTopologyChange t => some (rebuildForTopologyChange env s t)
  | .present graph metric multiple => some {s with pages := s.pages.mapIdx (present graph metric multiple)}

def machine : Machine (State σ) (Action σ) := ⟨step env⟩

end Runs

end SystemMonitor.Performance
