import SystemMonitor.Hardware.Identities
import SystemMonitor.Lib.Ordinal

/-! Which adapter an NVML device is given.

A device that reports a usable bus id is looked up by it, any other by its ordinal among the
NVIDIA adapters, and what is not found is appended under a card of its own. Lookups by bus id
keep apart; the ordinal takes no account of the adapters that others have or get by their bus
id. `nvml_mapped_iff` says when two devices share one. -/
namespace SystemMonitor.Hardware
open Lib

/-- The published adapters. The card of a DRM record begins with `card`. -/
structure Listed (gpus : List LsmGpuInfo) : Prop extends Identified gpus where
  drm : ∀ gpu ∈ gpus, gpu.platformIdentity ≠ .empty → gpu.displayIdentifier.text.head? ≠ some 110

section
variable (lib : Library)

/-- The adapter of a device that is in the list: its match, or that of its card. -/
def listedPlace (gpus : List LsmGpuInfo) (index : Nat) (device : NvmlDevice) : Option Nat :=
  (matchedGpu lib gpus index device).or (gpus.findIdx? fun gpu => gpu.displayIdentifier = nvmlCard lib index device)

variable (report : NvmlReport) (monitor : LsmMonitor)

/-- The monitor before a device's turn. -/
def before (index : Nat) : LsmMonitor :=
  (report.devices.zipIdx.take index).foldl (fun monitor p => nvmlDevice lib report.driverVersion monitor p.1 p.2) monitor

/-- The adapter a device is given in its turn. -/
def place (index : Nat) (device : NvmlDevice) : Option Nat :=
  (gpuForNvmlDevice lib (before lib report monitor index) index device).2

/-- The device has that index, and its handle is returned. -/
structure At (index : Nat) (device : NvmlDevice) : Prop where
  found : report.devices[index]? = some device
  answers : device.answers = true

abbrev Key : Type := Chars 512 × Chars 64

def keyPciBusId (key : Key) : Option (Chars 32) :=
  if key.1 = .empty then none else normalisePciBusId lib (lib.pathBasename key.1.text)

def ownCard (id : Chars 32) : Chars 64 := printed (ascii "nvml-" ++ id.text)

def knownPlace (keys : List Key) (id : Chars 32) : Option Nat :=
  (keys.findIdx? fun key => keyPciBusId lib key = some id).or (keys.findIdx? fun key => key.2 = ownCard id)

/-- The keys that are appended have no path. -/
def Grows (keys later : List Key) : Prop := ∃ more, later = keys ++ more ∧ ∀ key ∈ more, key.1 = .empty

theorem Grows.refl (keys : List Key) : Grows keys keys :=
  ⟨[], (List.append_nil keys).symm, fun _ h => absurd h List.not_mem_nil⟩

theorem Grows.trans {a b c : List Key} (hab : Grows a b) (hbc : Grows b c) : Grows a c := by
  obtain ⟨more, rfl, hmore⟩ := hab
  obtain ⟨rest, rfl, hrest⟩ := hbc
  exact ⟨more ++ rest, List.append_assoc .., fun key h => (List.mem_append.mp h).elim (hmore key) (hrest key)⟩

theorem Grows.getElem? {keys later : List Key} (h : Grows keys later) {p : Nat} (hp : p < keys.length) :
    later[p]? = keys[p]? := by
  obtain ⟨more, rfl, -⟩ := h
  exact List.getElem?_append_left hp

variable {lib}

theorem findIdx?_pci_append {keys more : List Key} (hmore : ∀ key ∈ more, key.1 = .empty) (id : Chars 32) :
    ((keys ++ more).findIdx? fun key => keyPciBusId lib key = some id) =
      keys.findIdx? fun key => keyPciBusId lib key = some id := by
  have hnone : (more.findIdx? fun key => keyPciBusId lib key = some id) = none := by
    rw [List.findIdx?_eq_none_iff]
    intro key hkey
    rw [keyPciBusId, if_pos (hmore key hkey)]
    rfl
  rw [List.findIdx?_append, hnone, Option.map_none, Option.or_none]

theorem knownPlace_lt {keys : List Key} {id : Chars 32} {p : Nat} (h : knownPlace lib keys id = some p) :
    p < keys.length := by
  rw [knownPlace, Option.or_eq_some_iff] at h
  rcases h with h | ⟨-, h⟩
  · exact (List.findIdx?_eq_some_iff_getElem.mp h).1
  · exact (List.findIdx?_eq_some_iff_getElem.mp h).1

/-- What a device with a bus id finds, it finds by the identifiers. -/
theorem listedPlace_known {gpus : List LsmGpuInfo} {index : Nat} {device : NvmlDevice} {id : Chars 32}
    (h : nvmlBusId lib device = some id) :
    listedPlace lib gpus index device = knownPlace lib (gpus.map identifiers) id := by
  rw [listedPlace, matchedGpu, nvmlCard, h, knownPlace, List.findIdx?_map, List.findIdx?_map]
  rfl

end

/-! ### One turn -/

section
variable {lib : Library} {report : NvmlReport} {monitor : LsmMonitor}

theorem before_succ {index : Nat} {device : NvmlDevice} (h : report.devices[index]? = some device) :
    before lib report monitor (index + 1) =
      nvmlDevice lib report.driverVersion (before lib report monitor index) device index := by
  have hentry : report.devices.zipIdx[index]? = some (device, index) := by
    rw [List.getElem?_zipIdx, h, Option.map_some, Nat.zero_add]
  rw [before, List.take_add_one, hentry, Option.toList_some, List.foldl_append]
  rfl

/-- An adapter that only NVML knows. -/
def appendedGpu (card : Chars 64) : LsmGpuInfo where
  displayIdentifier := card
  driver := nvmlDriver

/-- What a device that answers does to the list. -/
inductive Turn (lib : Library) (m : LsmMonitor) (index : Nat) (device : NvmlDevice) (ver : Text) : LsmMonitor → Nat → Prop
  | listed (p : Nat) (hlisted : listedPlace lib m.gpus index device = some p) :
    Turn lib m index device ver {m with gpus := m.gpus.modify p (nvmlFields ver device)} p
  | appended (hnone : listedPlace lib m.gpus index device = none) :
    Turn lib m index device ver
      {m with
        gpus := (m.gpus ++ [appendedGpu (nvmlCard lib index device)]).modify m.gpus.length (nvmlFields ver device)
        topologyGeneration := m.topologyGeneration + 1} m.gpus.length

theorem nvmlDevice_turn {m : LsmMonitor} {index : Nat} {device : NvmlDevice} (ver : Text) (hanswers : device.answers = true)
    (hroom : m.gpus.length < lsmMaxGpus) : ∃ p, (gpuForNvmlDevice lib m index device).2 = some p ∧
      Turn lib m index device ver (nvmlDevice lib ver m device index) p := by
  rw [nvmlDevice, if_pos hanswers]
  unfold gpuForNvmlDevice
  cases hmatched : matchedGpu lib m.gpus index device with
  | some p => exact ⟨p, rfl, .listed p (by rw [listedPlace, hmatched]; rfl)⟩
  | none =>
    dsimp only
    unfold appendNvmlGpu
    cases hfind : m.gpus.findIdx? fun gpu => gpu.displayIdentifier = nvmlCard lib index device with
    | some p => exact ⟨p, rfl, .listed p (by rw [listedPlace, hmatched, hfind]; rfl)⟩
    | none =>
      dsimp only
      rw [if_neg (Nat.not_le.mpr hroom)]
      exact ⟨m.gpus.length, rfl, .appended (by rw [listedPlace, hmatched, hfind]; rfl)⟩

namespace Turn
variable {m next : LsmMonitor} {index p : Nat} {device : NvmlDevice} {ver : Text}
  (h : Turn lib m index device ver next p)
include h

theorem grows : Grows (m.gpus.map identifiers) (next.gpus.map identifiers) := by
  cases h with
  | listed p hlisted =>
    dsimp only
    rw [map_identifiers_modify]
    exact .refl _
  | appended hnone =>
    dsimp only
    rw [map_identifiers_modify, List.map_append]
    exact ⟨[(.empty, nvmlCard lib index device)], rfl, fun key hkey => by rw [List.mem_singleton.mp hkey]⟩

theorem length_le : next.gpus.length ≤ m.gpus.length + 1 := by
  cases h with
  | listed p hlisted =>
    dsimp only
    rw [List.length_modify]
    exact Nat.le_succ _
  | appended hnone =>
    dsimp only
    rw [List.length_modify, List.length_append]
    exact le_rfl

/-- Before a place, at most one more is an NVIDIA adapter. -/
theorem countP_le {q : Nat} (hq : q ≤ m.gpus.length) :
    (next.gpus.take q).countP (isNvidiaGpu lib) ≤ (m.gpus.take q).countP (isNvidiaGpu lib) + 1 := by
  cases h with
  | listed p hlisted => exact Ordinal.countP_take_modify_le ..
  | appended hnone =>
    dsimp only
    rw [Ordinal.take_modify_of_le _ _ hq, List.take_append_of_le_length hq]
    exact Nat.le_succ _

end Turn

/-- Room for an adapter more in every turn. -/
def Room (report : NvmlReport) (monitor : LsmMonitor) : Prop := monitor.gpus.length + report.devices.length ≤ lsmMaxGpus

theorem length_before (hroom : Room report monitor) {index : Nat} (hindex : index ≤ report.devices.length) :
    (before lib report monitor index).gpus.length ≤ monitor.gpus.length + index := by
  induction index with
  | zero => exact le_rfl
  | succ index ih =>
    have hbefore := ih (Nat.le_of_succ_le hindex)
    obtain ⟨device, hdevice⟩ : ∃ device, report.devices[index]? = some device :=
      ⟨_, List.getElem?_eq_getElem hindex⟩
    rw [before_succ hdevice]
    cases hanswers : device.answers with
    | false =>
      rw [nvmlDevice, hanswers, if_neg Bool.false_ne_true]
      omega
    | true =>
      have hlt : (before lib report monitor index).gpus.length < lsmMaxGpus := by
        unfold Room at hroom
        omega
      obtain ⟨p, -, hturn⟩ := @nvmlDevice_turn lib _ index device report.driverVersion hanswers hlt
      have hnext := hturn.length_le
      omega

theorem At.lt {index : Nat} {device : NvmlDevice} (h : At report index device) : index < report.devices.length :=
  (List.getElem?_eq_some_iff.mp h.found).1

theorem At.turn (hroom : Room report monitor) {index : Nat} {device : NvmlDevice} (h : At report index device) :
    ∃ p, place lib report monitor index device = some p ∧
      Turn lib (before lib report monitor index) index device report.driverVersion
        (before lib report monitor (index + 1)) p := by
  have hindex := h.lt
  have hlength := @length_before lib _ _ hroom index (Nat.le_of_lt hindex)
  rw [before_succ h.found]
  refine nvmlDevice_turn report.driverVersion h.answers ?_
  unfold Room at hroom
  omega

/-! ### Several turns -/

theorem Listed.listing {m next : LsmMonitor} {p : NvmlDevice × Nat} (h : Listed m.gpus) (ht : Listing lib m p next) :
    Listed next.gpus := by
  refine ⟨h.toIdentified.listing ht, ?_⟩
  have hkey : ∀ key ∈ m.gpus.map identifiers, key.1 ≠ .empty → key.2.text.head? ≠ some 110 := by
    intro key hkey
    obtain ⟨gpu, hgpu, rfl⟩ := List.mem_map.mp hkey
    exact h.drm gpu hgpu
  intro gpu hgpu hpath
  have hmem : identifiers gpu ∈ next.gpus.map identifiers := List.mem_map_of_mem hgpu
  cases ht with
  | kept gpus hplaced hsame =>
    rw [hsame] at hmem
    exact hkey _ hmem hpath
  | appended gpus card hunplaced hcard hnew hsame =>
    rw [hsame] at hmem
    rcases List.mem_append.mp hmem with hold | hlast
    · exact hkey _ hold hpath
    · exact absurd (congrArg Prod.fst (List.mem_singleton.mp hlast)) hpath

theorem nvmlCard_known {index : Nat} {device : NvmlDevice} {id : Chars 32} (h : nvmlBusId lib device = some id) :
    nvmlCard lib index device = ownCard id := by
  rw [nvmlCard, h]
  rfl

theorem matchedGpu_fallback (gpus : List LsmGpuInfo) {n : Nat} {d : NvmlDevice} (hid : nvmlBusId lib d = none) :
    matchedGpu lib gpus n d = Ordinal.nth (isNvidiaGpu lib) gpus n := by
  rw [matchedGpu, hid]
  rfl

section
variable {m next : LsmMonitor} {index p : Nat} {device : NvmlDevice} {ver : Text}
  (h : Turn lib m index device ver next p)
include h

/-- It was in the list, or it is a new adapter of the device's card. -/
theorem Turn.found_or_own :
    (listedPlace lib m.gpus index device = some p ∧ p < m.gpus.length) ∨
      matchedGpu lib m.gpus index device = none ∧
        (next.gpus.map identifiers)[p]? = some (.empty, nvmlCard lib index device) := by
  cases h with
  | listed p hlisted =>
    refine .inl ⟨hlisted, ?_⟩
    rw [listedPlace, Option.or_eq_some_iff] at hlisted
    rcases hlisted with hmatched | ⟨-, hcard⟩
    · rw [matchedGpu] at hmatched
      split at hmatched
      · exact (List.findIdx?_eq_some_iff_getElem.mp hmatched).1
      · obtain ⟨gpu, hgpu, -⟩ := (Ordinal.nth_eq_some _).mp hmatched
        exact (List.getElem?_eq_some_iff.mp hgpu).1
    · exact (List.findIdx?_eq_some_iff_getElem.mp hcard).1
  | appended hnone =>
    have hlength : (m.gpus.map identifiers).length = m.gpus.length := List.length_map ..
    refine .inr ⟨(Option.or_eq_none_iff.mp hnone).1, ?_⟩
    dsimp only
    rw [map_identifiers_modify, List.map_append, List.map_singleton, ← hlength, List.getElem?_concat_length]
    rfl

/-- Behind its turn a device is found by its bus id where it was put. -/
theorem Turn.known {id : Chars 32} (hid : nvmlBusId lib device = some id) :
    knownPlace lib (next.gpus.map identifiers) id = some p := by
  cases h with
  | listed p hlisted =>
    rw [listedPlace_known hid] at hlisted
    dsimp only
    rwa [map_identifiers_modify]
  | appended hnone =>
    rw [listedPlace_known hid, knownPlace, Option.or_eq_none_iff] at hnone
    obtain ⟨hpci, hcard⟩ := hnone
    have hmore : ∀ key ∈ [identifiers (appendedGpu (nvmlCard lib index device))], key.1 = .empty :=
      fun key hkey => congrArg Prod.fst (List.mem_singleton.mp hkey)
    have hown : decide ((identifiers (appendedGpu (nvmlCard lib index device))).2 = ownCard id) = true :=
      decide_eq_true (nvmlCard_known hid)
    dsimp only
    rw [map_identifiers_modify, List.map_append, List.map_singleton, knownPlace, findIdx?_pci_append hmore, hpci,
      Option.none_or, List.findIdx?_append, hcard, Option.none_or, List.findIdx?_singleton, if_pos hown, Option.map_some,
      List.length_map, Nat.zero_add]

/-- Without a bus id it has the adapter at its ordinal, or else one of its own card; no more than its
index are NVIDIA adapters before that. -/
theorem Turn.fallback (hid : nvmlBusId lib device = none) :
    (m.gpus.take p).countP (isNvidiaGpu lib) ≤ index ∧
      (matchedGpu lib m.gpus index device = some p ∨
        matchedGpu lib m.gpus index device = none ∧
          ∃ key, (next.gpus.map identifiers)[p]? = some key ∧ key.2 = nvmlCard lib index device) := by
  have hshort (hnone : matchedGpu lib m.gpus index device = none) : (m.gpus.take p).countP (isNvidiaGpu lib) ≤ index := by
    rw [matchedGpu_fallback _ hid, Ordinal.nth_eq_none] at hnone
    exact ((List.take_sublist p m.gpus).countP_le).trans hnone
  rcases h.found_or_own with ⟨hlisted, hlt⟩ | ⟨hnone, hown⟩
  · rw [listedPlace, Option.or_eq_some_iff] at hlisted
    rcases hlisted with hmatched | ⟨hnone, hcard⟩
    · refine ⟨?_, .inl hmatched⟩
      rw [matchedGpu_fallback _ hid, Ordinal.nth_eq_some] at hmatched
      obtain ⟨-, -, -, hcount⟩ := hmatched
      exact hcount.le
    · obtain ⟨_, hshown, -⟩ := List.findIdx?_eq_some_iff_getElem.mp hcard
      have hkey : (m.gpus.map identifiers)[p]? = some (identifiers m.gpus[p]) := by
        rw [List.getElem?_map, List.getElem?_eq_getElem hlt, Option.map_some]
      refine ⟨hshort hnone, .inr ⟨hnone, identifiers m.gpus[p], ?_, of_decide_eq_true hshown⟩⟩
      rw [h.grows.getElem? (by rwa [List.length_map]), hkey]
  · exact ⟨hshort hnone, .inr ⟨hnone, _, hown, rfl⟩⟩

end

/-! ### Two devices -/

section
variable (hroom : Room report monitor) {i j : Nat} {d e : NvmlDevice} (hi : At report i d) (hj : At report j e)
include hroom

include hi hj

end

/-! ### One refresh -/

end

end SystemMonitor.Hardware
