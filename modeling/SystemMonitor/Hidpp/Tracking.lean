import SystemMonitor.Hidpp.Model
import SystemMonitor.Lib.Each
import Mathlib.Algebra.Order.Ring.Rat
import Mathlib.Data.Finset.Card
import Mathlib.Data.Finset.Dedup
import Mathlib.Data.Rat.Defs
import Mathlib.Tactic.Linarith

/-! The worker that keeps the batteries of Logitech devices up to date.

One thread asks the devices in turn, each when it is due; the devices are replaced, the readings
taken and the thread stopped meanwhile, in any order. The devices stand in one array, and the one
that is asked may be gone, or gone and back, when its answer comes. Every device goes its own way
all the same (`hidpp_worker`), and none is asked again within ten seconds (`hidpp_asked_apart`). -/
namespace SystemMonitor.Hidpp.Worker
open Lib

abbrev Path := Chars 512

def maxDevices : Nat := 16
def refreshSeconds : ℚ := 10
def retrySeconds : ℚ := 30

structure LsmHidppDeviceSlot where
  devicePath : Path
  featureId : Nat := 0
  featureIndex : UInt8 := 0
  reading : LsmHidppBatteryReading := {}
  nextQueryMonotonic : ℚ := 0
  valid : Bool := false

/-! ### The slots -/

def findSlot (devices : List LsmHidppDeviceSlot) (path : Path) : Option LsmHidppDeviceSlot :=
  devices.find? fun slot => slot.devicePath = path

/-- A change of the slot that `find_slot_locked` finds. -/
def modifySlot (path : Path) (f : LsmHidppDeviceSlot → LsmHidppDeviceSlot) : List LsmHidppDeviceSlot → List LsmHidppDeviceSlot
  | [] => []
  | slot :: rest => if slot.devicePath = path then f slot :: rest else slot :: modifySlot path f rest

/-- The first slot that is due, and how long to wait if there is none. -/
def findDueSlot (now : ℚ) : List LsmHidppDeviceSlot → Nat → ℚ → Option Nat × ℚ
  | [], _, shortestWait => (none, shortestWait)
  | slot :: rest, index, shortestWait =>
    let remaining := slot.nextQueryMonotonic - now
    if remaining ≤ 0 then (some index, shortestWait)
    else findDueSlot now rest (index + 1) (if remaining < shortestWait then remaining else shortestWait)

/-- The slots for these paths; `none`: there are too many. -/
def updatedLoop (devices : List LsmHidppDeviceSlot) :
    List LsmHidppDeviceSlot → List Path → Option (List LsmHidppDeviceSlot)
  | updated, [] => some updated
  | updated, path :: rest =>
    if path.text = [] then updatedLoop devices updated rest
    else if updated.any fun slot => slot.devicePath = path then updatedLoop devices updated rest
    else if maxDevices ≤ updated.length then none
    else updatedLoop devices (updated ++ [(findSlot devices path).getD {devicePath := path}]) rest

/-! ### The worker and its users -/

inductive Thread where
  | absent
  | looking
  /-- With the copy of the slot that it asks for. -/
  | asking (request : LsmHidppDeviceSlot)

/-- `prepared`: the condition is there. -/
inductive Started where
  | unprepared
  | prepared (created : Bool)

structure State where
  devices : List LsmHidppDeviceSlot := []
  thread : Thread := .absent
  threadStarted : Bool := false
  stopRequested : Bool := false
  /-- The one who stops the worker waits for its end. -/
  joining : Bool := false

/-- What a query gives: the feature that was used, and the reading. -/
structure Answer where
  featureId : Nat
  featureIndex : UInt8
  reading : LsmHidppBatteryReading
  deriving DecidableEq

inductive Action where
  | start (outcome : Started)
  | setDevices (paths : List Path)
  | snapshot (path : Path)
  /-- The clock is read twice when a slot is due. -/
  | look (now again : ℚ)
  | answer (answer : Option Answer) (now : ℚ)
  | quit
  | stop
  | joined
  | detached

def answered (answer : Option Answer) (now : ℚ) (slot : LsmHidppDeviceSlot) : LsmHidppDeviceSlot :=
  match answer with
  | some answer =>
    { slot with
      nextQueryMonotonic := now + refreshSeconds
      featureId := answer.featureId
      featureIndex := answer.featureIndex
      reading := answer.reading
      valid := true }
  | none => {slot with nextQueryMonotonic := now + retrySeconds, featureId := 0, featureIndex := 0}

def lsmLogitechHidppSnapshot (s : State) (path : Path) : Option LsmHidppBatteryReading :=
  if path.text = [] then none else ((findSlot s.devices path).filter (·.valid)).map (·.reading)

def lsmLogitechHidppSetDevices (s : State) (paths : List Path) : State × Bool :=
  match updatedLoop s.devices [] paths with
  | some updated => ({s with devices := updated}, true)
  | none => (s, false)

def lsmLogitechHidppStart (s : State) : Started → State
  | .unprepared => s
  | .prepared created =>
    if s.threadStarted then s
    else
      { s with
        stopRequested := false
        devices := []
        thread := if created then .looking else s.thread
        threadStarted := created }

/-- One turn of the inner loop: the worker asks a slot that is due, or goes to sleep. -/
def hidppWorkerLook (s : State) (now again : ℚ) : State :=
  match (findDueSlot now s.devices 0 refreshSeconds).1 with
  | none => s
  | some selected =>
    match s.devices[selected]? with
    | none => s
    | some request =>
      { s with
        devices := s.devices.modify selected fun slot => {slot with nextQueryMonotonic := again + retrySeconds}
        thread := .asking request }

def hidppWorkerAnswer (s : State) (request : LsmHidppDeviceSlot) (answer : Option Answer) (now : ℚ) : State :=
  { s with
    devices := if s.stopRequested then s.devices else modifySlot request.devicePath (answered answer now) s.devices
    thread := .looking }

def State.step (s : State) : Action → Option State
  | .start outcome => some (lsmLogitechHidppStart s outcome)
  | .setDevices paths => some (lsmLogitechHidppSetDevices s paths).1
  | .snapshot _ => some s
  | .look now again =>
    match s.thread with
    | .looking => if s.stopRequested ∨ s.devices = [] then none else some (hidppWorkerLook s now again)
    | _ => none
  | .answer answer now =>
    match s.thread with
    | .asking request => some (hidppWorkerAnswer s request answer now)
    | _ => none
  | .quit =>
    match s.thread with
    | .looking => if s.stopRequested then some {s with thread := .absent} else none
    | _ => none
  | .stop =>
    if !s.threadStarted then some s
    else if s.stopRequested then none
    else some {s with stopRequested := true, joining := true}
  | .joined =>
    match s.thread with
    | .absent => if s.joining then some {} else none
    | _ => none
  | .detached => if s.joining then some {s with joining := false} else none

def worker : Machine State Action where
  step := State.step

/-! ### What happens to the devices -/

inductive Event where
  /-- The slots have been emptied. -/
  | cleared
  | tracked (paths : List Path)
  | refused (paths : List Path)
  | took (path : Path) (reading : Option LsmHidppBatteryReading)
  | asked (path : Path) (featureId : Nat) (featureIndex : UInt8) (now again : ℚ)
  | slept (now seconds : ℚ)
  | answered (path : Path) (answer : Option Answer) (now : ℚ)
  deriving DecidableEq

def nonempty (paths : List Path) : List Path := paths.filter fun path => path.text ≠ []

def events (s : State) : Action → List Event
  | .start (.prepared _) => if s.threadStarted then [] else [.cleared]
  | .setDevices paths => if (lsmLogitechHidppSetDevices s paths).2 then [.tracked (nonempty paths)] else [.refused (nonempty paths)]
  | .snapshot path => [.took path (lsmLogitechHidppSnapshot s path)]
  | .look now again =>
    match findDueSlot now s.devices 0 refreshSeconds with
    | (none, wait) => [.slept now wait]
    | (some selected, _) =>
      match s.devices[selected]? with
      | none => []
      | some request => [.asked request.devicePath request.featureId request.featureIndex now again]
  | .answer answer now =>
    match s.thread with
    | .asking request => if s.stopRequested then [] else [.answered request.devicePath answer now]
    | _ => []
  | .joined => [.cleared]
  | _ => []

/-! ### One device by itself -/

/-- What is known of a device that is tracked. -/
structure Device where
  featureId : Nat := 0
  featureIndex : UInt8 := 0
  reading : Option LsmHidppBatteryReading := none
  due : ℚ := 0

def Device.answered (device : Device) (now : ℚ) : Option Answer → Device
  | some answer => ⟨answer.featureId, answer.featureIndex, some answer.reading, now + refreshSeconds⟩
  | none => {device with featureId := 0, featureIndex := 0, due := now + retrySeconds}

/-- What an event does to one device; `none`: it is not tracked. -/
def Device.after (path : Path) (device : Option Device) : Event → Option Device
  | .cleared => none
  | .tracked paths => if path ∈ paths then some (device.getD {}) else none
  | .asked other _ _ _ again =>
    if other = path then device.map fun device => {device with due := again + retrySeconds} else device
  | .answered other answer now => if other = path then device.map (·.answered now answer) else device
  | _ => device

def device (path : Path) (log : List Event) : Option Device := log.foldl (Device.after path) none

def LsmHidppDeviceSlot.device (slot : LsmHidppDeviceSlot) : Device where
  featureId := slot.featureId
  featureIndex := slot.featureIndex
  reading := if slot.valid then some slot.reading else none
  due := slot.nextQueryMonotonic

/-! ### Finding and changing slots -/

section
variable {devices : List LsmHidppDeviceSlot} {path other : Path} {f : LsmHidppDeviceSlot → LsmHidppDeviceSlot}

theorem findSlot_some {slot : LsmHidppDeviceSlot} (h : findSlot devices path = some slot) :
    slot ∈ devices ∧ slot.devicePath = path := by
  rw [findSlot] at h
  exact ⟨List.mem_of_find?_eq_some h, by simpa using List.find?_some h⟩

theorem findSlot_eq_none : findSlot devices path = none ↔ path ∉ devices.map (·.devicePath) := by
  simp [findSlot]

/-- A slot of the array is the one found for its path. -/
theorem findSlot_of_mem (hdistinct : (devices.map (·.devicePath)).Nodup) {slot : LsmHidppDeviceSlot} (h : slot ∈ devices) :
    findSlot devices slot.devicePath = some slot := by
  cases hfound : findSlot devices slot.devicePath with
  | none => exact absurd (List.mem_map_of_mem h) (findSlot_eq_none.mp hfound)
  | some found =>
    obtain ⟨hmem, hpath⟩ := findSlot_some hfound
    exact congrArg some (List.inj_on_of_nodup_map hdistinct hmem h hpath)

theorem findSlot_map (hf : ∀ slot, (f slot).devicePath = slot.devicePath) :
    findSlot (devices.map f) path = (findSlot devices path).map f := by
  rw [findSlot, List.find?_map]
  simp only [Function.comp_def, hf]
  rfl

/-- With distinct paths, one slot is changed for its path. -/
theorem modifySlot_eq_map (hdistinct : (devices.map (·.devicePath)).Nodup) :
    modifySlot path f devices = devices.map fun slot => if slot.devicePath = path then f slot else slot := by
  induction devices with
  | nil => rfl
  | cons slot rest ih =>
    obtain ⟨hnot, hrest⟩ := List.nodup_cons.mp hdistinct
    rw [modifySlot, List.map_cons]
    split
    · next hpath =>
      have hothers : rest.map (fun slot => if slot.devicePath = path then f slot else slot) = rest.map id := by
        refine List.map_congr_left fun other hother => if_neg fun heq => hnot ?_
        exact List.mem_map.mpr ⟨other, hother, heq.trans hpath.symm⟩
      rw [hothers, List.map_id]
    · rw [ih hrest]

theorem modify_eq_map (hdistinct : (devices.map (·.devicePath)).Nodup) {i : Nat} {selected : LsmHidppDeviceSlot}
    (h : devices[i]? = some selected) :
    devices.modify i f = devices.map fun slot => if slot.devicePath = selected.devicePath then f slot else slot := by
  refine List.ext_getElem? fun k => ?_
  rw [List.getElem?_modify, List.getElem?_map]
  cases hk : devices[k]? with
  | none => rfl
  | some slot =>
    have hiff : i = k ↔ slot.devicePath = selected.devicePath := by
      constructor
      · rintro rfl
        rw [Option.some.inj (hk.symm.trans h)]
      · intro hpath
        have hlt : i < (devices.map (·.devicePath)).length := by
          rw [List.length_map]
          exact (List.getElem?_eq_some_iff.mp h).1
        refine (List.getElem?_inj hlt hdistinct).mp ?_
        rw [List.getElem?_map, List.getElem?_map, h, hk]
        exact congrArg some hpath.symm
    refine congrArg some ?_
    dsimp only
    by_cases hik : i = k
    · rw [if_pos hik, if_pos (hiff.mp hik)]
    · rw [if_neg hik, if_neg fun hpath => hik (hiff.mpr hpath)]

end

/-! ### What is due -/

theorem findDueSlot_some {now wait : ℚ} {devices : List LsmHidppDeviceSlot} {k selected : Nat} {shortest : ℚ}
    (h : findDueSlot now devices k shortest = (some selected, wait)) :
    ∃ i slot, selected = k + i ∧ devices[i]? = some slot ∧ slot.nextQueryMonotonic ≤ now := by
  induction devices generalizing k shortest with
  | nil => cases h
  | cons slot rest ih =>
    rw [findDueSlot] at h
    split at h
    · next hdue =>
      cases h
      exact ⟨0, slot, rfl, rfl, sub_nonpos.mp hdue⟩
    · obtain ⟨i, found, rfl, hfound, hdue⟩ := ih h
      exact ⟨i + 1, found, by omega, hfound, hdue⟩

theorem findDueSlot_none {now wait : ℚ} {devices : List LsmHidppDeviceSlot} {k : Nat} {shortest : ℚ}
    (h : findDueSlot now devices k shortest = (none, wait)) (hshortest : 0 < shortest) :
    0 < wait ∧ wait ≤ shortest ∧ ∀ slot ∈ devices, now + wait ≤ slot.nextQueryMonotonic := by
  induction devices generalizing k shortest with
  | nil =>
    cases h
    exact ⟨hshortest, le_refl _, by simp⟩
  | cons slot rest ih =>
    rw [findDueSlot] at h
    split at h
    · cases h
    · next hlater =>
      have hpos : 0 < if slot.nextQueryMonotonic - now < shortest then slot.nextQueryMonotonic - now else shortest := by
        split
        · exact not_le.mp hlater
        · exact hshortest
      obtain ⟨hwait, hle, hrest⟩ := ih h hpos
      refine ⟨hwait, ?_, List.forall_mem_cons.mpr ⟨?_, hrest⟩⟩
      · split at hle
        · next hless => exact hle.trans hless.le
        · exact hle
      · split at hle
        · linarith
        · next hless => linarith [not_lt.mp hless]

/-! ### The slots of a new set of paths -/

/-- The slots `updated` are those of the paths `done`. -/
structure Updated (devices : List LsmHidppDeviceSlot) (done : List Path) (updated : List LsmHidppDeviceSlot) : Prop where
  distinct : (updated.map (·.devicePath)).Nodup
  mem : ∀ path, path ∈ updated.map (·.devicePath) ↔ path ∈ done
  slot : ∀ slot ∈ updated, slot = (findSlot devices slot.devicePath).getD {devicePath := slot.devicePath}
  few : updated.length ≤ maxDevices

section
variable {devices updated result : List LsmHidppDeviceSlot} {done : List Path}

theorem Updated.nil (devices : List LsmHidppDeviceSlot) : Updated devices [] [] :=
  ⟨.nil, fun _ => Iff.rfl, by simp, Nat.zero_le _⟩

theorem Updated.card (h : Updated devices done updated) : done.toFinset.card = updated.length := by
  have hset : done.toFinset = (updated.map (·.devicePath)).toFinset := by
    ext path
    rw [List.mem_toFinset, List.mem_toFinset, h.mem]
  rw [hset, List.toFinset_card_of_nodup h.distinct, List.length_map]

theorem slotFor_devicePath (devices : List LsmHidppDeviceSlot) (path : Path) :
    ((findSlot devices path).getD {devicePath := path}).devicePath = path := by
  cases h : findSlot devices path with
  | none => rfl
  | some slot => exact (findSlot_some h).2

theorem Updated.concat (h : Updated devices done updated) {path : Path} (hnew : path ∉ done)
    (hroom : updated.length < maxDevices) :
    Updated devices (done ++ [path]) (updated ++ [(findSlot devices path).getD {devicePath := path}]) where
  distinct := by
    rw [List.map_append, List.map_singleton, slotFor_devicePath]
    refine List.nodup_append.mpr ⟨h.distinct, List.nodup_singleton _, ?_⟩
    rintro other hother _ hpath rfl
    exact hnew (List.mem_singleton.mp hpath ▸ (h.mem other).mp hother)
  mem other := by
    rw [List.map_append, List.map_singleton, slotFor_devicePath, List.mem_append, List.mem_append, h.mem]
  slot slot hslot := by
    rcases List.mem_append.mp hslot with hold | hlast
    · exact h.slot slot hold
    · rw [List.mem_singleton.mp hlast, slotFor_devicePath]
  few := by
    rw [List.length_append]
    exact hroom

theorem any_devicePath (h : Updated devices done updated) (path : Path) :
    (updated.any fun slot => slot.devicePath = path) = true ↔ path ∈ done := by
  rw [← h.mem]
  simp

theorem Updated.again (h : Updated devices done updated) {path : Path} (hmem : path ∈ done) :
    Updated devices (done ++ [path]) updated where
  distinct := h.distinct
  mem other := by
    rw [h.mem, List.mem_append, List.mem_singleton]
    exact ⟨.inl, fun hor => hor.elim id fun heq => heq ▸ hmem⟩
  slot := h.slot
  few := h.few

theorem updatedLoop_some {paths : List Path} (h : Updated devices done updated)
    (hresult : updatedLoop devices updated paths = some result) : Updated devices (done ++ nonempty paths) result := by
  induction paths generalizing updated done with
  | nil =>
    cases hresult
    rw [nonempty, List.filter_nil, List.append_nil]
    exact h
  | cons path rest ih =>
    rw [updatedLoop] at hresult
    split at hresult
    · next hempty =>
      rw [nonempty, List.filter_cons_of_neg (by simpa using hempty)]
      exact ih h hresult
    · next hnonempty =>
      rw [nonempty, List.filter_cons_of_pos (by simpa using hnonempty), List.append_cons]
      split at hresult
      · next hany => exact ih (h.again ((any_devicePath h path).mp hany)) hresult
      · next hany =>
        split at hresult
        · cases hresult
        · next hroom => exact ih (h.concat (fun hmem => hany ((any_devicePath h path).mpr hmem)) (Nat.lt_of_not_le hroom)) hresult

theorem updatedLoop_none {paths : List Path} (h : Updated devices done updated)
    (hresult : updatedLoop devices updated paths = none) : maxDevices < (done ++ nonempty paths).toFinset.card := by
  induction paths generalizing updated done with
  | nil => cases hresult
  | cons path rest ih =>
    rw [updatedLoop] at hresult
    split at hresult
    · next hempty =>
      rw [nonempty, List.filter_cons_of_neg (by simpa using hempty)]
      exact ih h hresult
    · next hnonempty =>
      rw [nonempty, List.filter_cons_of_pos (by simpa using hnonempty), List.append_cons]
      split at hresult
      · next hany => exact ih (h.again ((any_devicePath h path).mp hany)) hresult
      · next hany =>
        have hnew : path ∉ done := fun hmem => hany ((any_devicePath h path).mpr hmem)
        split at hresult
        · next hfull =>
          have hmore : (insert path done.toFinset).card ≤ (done ++ [path] ++ nonempty rest).toFinset.card := by
            refine Finset.card_le_card fun other hother => ?_
            rw [Finset.mem_insert, List.mem_toFinset] at hother
            simp only [List.mem_toFinset, List.mem_append, List.mem_singleton]
            exact .inl hother.symm
          rw [Finset.card_insert_of_notMem (by rwa [List.mem_toFinset]), h.card] at hmore
          exact Nat.lt_of_lt_of_le (Nat.lt_succ_of_le hfull) hmore
        · next hroom => exact ih (h.concat hnew (Nat.lt_of_not_le hroom)) hresult

theorem Updated.findSlot (h : Updated devices done updated) (path : Path) :
    Worker.findSlot updated path = if path ∈ done then some ((Worker.findSlot devices path).getD {devicePath := path}) else none := by
  cases hfound : Worker.findSlot updated path with
  | none => rw [if_neg fun hmem => findSlot_eq_none.mp hfound ((h.mem path).mpr hmem)]
  | some slot =>
    obtain ⟨hmem, rfl⟩ := findSlot_some hfound
    rw [if_pos ((h.mem _).mp (List.mem_map_of_mem hmem)), ← h.slot slot hmem]

end

/-! ### Every device goes its own way -/

/-- What may be said of an event, by the events before it. -/
def Right (before : List Event) : Event → Prop
  | .tracked paths => paths.toFinset.card ≤ maxDevices
  | .refused paths => maxDevices < paths.toFinset.card
  | .took path reading => reading = (device path before).bind (·.reading)
  | .asked path featureId featureIndex now _ =>
    ∃ asked, device path before = some asked ∧ asked.featureId = featureId ∧ asked.featureIndex = featureIndex ∧ asked.due ≤ now
  | .slept now seconds =>
    0 < seconds ∧ seconds ≤ refreshSeconds ∧ ∀ path tracked, device path before = some tracked → now + seconds ≤ tracked.due
  | _ => True

/-- The slots hold what the events say of each device. -/
structure Follows (log : List Event) (s : State) : Prop where
  distinct : (s.devices.map (·.devicePath)).Nodup
  named : ∀ slot ∈ s.devices, slot.devicePath.text ≠ []
  device : ∀ path, device path log = (findSlot s.devices path).map (·.device)

theorem device_concat (path : Path) (log : List Event) (e : Event) :
    device path (log ++ [e]) = Device.after path (device path log) e := by
  rw [device, List.foldl_append]
  rfl

theorem follows_cleared (log : List Event) {s : State} (h : s.devices = []) : Follows (log ++ [.cleared]) s where
  distinct := by
    rw [h]
    exact .nil
  named := by simp [h]
  device path := by
    rw [h, device_concat]
    rfl

section
variable {log : List Event} {s t : State}

/-- Steps that do not touch the slots. -/
theorem Follows.same (h : Follows log s) (hdevices : t.devices = s.devices) : Follows (log ++ []) t := by
  rw [List.append_nil]
  exact ⟨hdevices ▸ h.distinct, hdevices ▸ h.named, fun path => hdevices ▸ h.device path⟩

/-- A change of the slot of one path, and an event that makes the same change. -/
theorem Follows.change (h : Follows log s) {path : Path} {f : LsmHidppDeviceSlot → LsmHidppDeviceSlot} {g : Device → Device}
    {e : Event} (hf : ∀ slot, (f slot).devicePath = slot.devicePath) (hg : ∀ slot, (f slot).device = g slot.device)
    (he : ∀ other device, Device.after other device e = if path = other then device.map g else device)
    (hdevices : t.devices = s.devices.map fun slot => if slot.devicePath = path then f slot else slot) :
    Follows (log ++ [e]) t where
  distinct := by
    have hsame : (t.devices.map (·.devicePath)) = s.devices.map (·.devicePath) := by
      rw [hdevices, List.map_map]
      refine List.map_congr_left fun slot _ => ?_
      rw [Function.comp_apply]
      split
      · exact hf slot
      · rfl
    rw [hsame]
    exact h.distinct
  named slot hslot := by
    rw [hdevices] at hslot
    obtain ⟨old, hold, rfl⟩ := List.mem_map.mp hslot
    split
    · rw [hf]
      exact h.named old hold
    · exact h.named old hold
  device other := by
    have hpaths : ∀ slot : LsmHidppDeviceSlot, (if slot.devicePath = path then f slot else slot).devicePath = slot.devicePath := by
      intro slot
      split
      · exact hf slot
      · rfl
    rw [device_concat, he, h.device, hdevices, findSlot_map hpaths]
    cases hfound : findSlot s.devices other with
    | none =>
      split
      · rfl
      · rfl
    | some slot =>
      have hother : slot.devicePath = other := (findSlot_some hfound).2
      rw [Option.map_some, Option.map_some, Option.map_some, hother]
      by_cases hpath : path = other
      · rw [if_pos hpath, if_pos hpath.symm]
        exact congrArg some (hg slot).symm
      · rw [if_neg hpath, if_neg fun heq => hpath heq.symm]
        rfl

theorem Follows.setDevices (h : Follows log s) {paths : List Path} {updated : List LsmHidppDeviceSlot}
    (hupdated : Updated s.devices (nonempty paths) updated) :
    Follows (log ++ [.tracked (nonempty paths)]) {s with devices := updated} where
  distinct := hupdated.distinct
  named slot hslot := by
    have hmem := (hupdated.mem slot.devicePath).mp (List.mem_map_of_mem hslot)
    exact of_decide_eq_true (List.mem_filter.mp hmem).2
  device path := by
    rw [device_concat, hupdated.findSlot, Device.after, h.device]
    split
    · cases findSlot s.devices path with
      | none => rfl
      | some slot => rfl
    · rfl

/-- What a look finds. -/
theorem Follows.look (h : Follows log s) (now again : ℚ) :
    Each Right log (events s (.look now again)) ∧
      Follows (log ++ events s (.look now again)) (hidppWorkerLook s now again) := by
  rw [hidppWorkerLook, events]
  cases hfound : findDueSlot now s.devices 0 refreshSeconds with
  | mk selected wait =>
    cases selected with
    | none =>
      obtain ⟨hpos, hle, hwait⟩ := findDueSlot_none hfound (by decide +kernel)
      refine ⟨each_singleton.mpr ⟨hpos, hle, fun path tracked htracked => ?_⟩, h.distinct, h.named, fun path => ?_⟩
      · rw [h.device] at htracked
        obtain ⟨slot, hslot, rfl⟩ := Option.map_eq_some_iff.mp htracked
        exact hwait slot (findSlot_some hslot).1
      · rw [device_concat]
        exact h.device path
    | some selected =>
      obtain ⟨i, request, rfl, hrequest, hdue⟩ := findDueSlot_some hfound
      rw [Nat.zero_add]
      dsimp only
      rw [hrequest]
      dsimp only
      have hmem := List.mem_of_getElem? hrequest
      constructor
      · refine each_singleton.mpr ⟨request.device, ?_, rfl, rfl, hdue⟩
        rw [h.device, findSlot_of_mem h.distinct hmem]
        rfl
      · exact h.change (f := fun slot => {slot with nextQueryMonotonic := again + retrySeconds})
          (g := fun device => {device with due := again + retrySeconds})
          (fun _ => rfl) (fun _ => rfl) (fun _ _ => rfl) (modify_eq_map h.distinct hrequest)

theorem device_answered (answer : Option Answer) (now : ℚ) (slot : LsmHidppDeviceSlot) :
    (answered answer now slot).device = slot.device.answered now answer := by
  cases answer with
  | none => rfl
  | some answer => rfl

theorem answered_devicePath (answer : Option Answer) (now : ℚ) (slot : LsmHidppDeviceSlot) :
    (answered answer now slot).devicePath = slot.devicePath := by
  cases answer with
  | none => rfl
  | some answer => rfl

theorem Follows.snapshot (h : Follows log s) (path : Path) :
    lsmLogitechHidppSnapshot s path = (Worker.device path log).bind (·.reading) := by
  rw [lsmLogitechHidppSnapshot, h.device]
  cases hfound : findSlot s.devices path with
  | none =>
    split
    · rfl
    · rfl
  | some slot =>
    obtain ⟨hmem, rfl⟩ := findSlot_some hfound
    rw [if_neg (h.named slot hmem)]
    cases hvalid : slot.valid with
    | false => simp [LsmHidppDeviceSlot.device, hvalid]
    | true => simp [LsmHidppDeviceSlot.device, hvalid]

/-- One action: its events are right, and the slots follow them. -/
theorem Follows.step (h : Follows log s) {action : Action} (hstep : s.step action = some t) :
    Each Right log (events s action) ∧ Follows (log ++ events s action) t := by
  cases action with
  | start outcome =>
    cases hstep
    cases outcome with
    | unprepared => exact ⟨trivial, h.same rfl⟩
    | prepared created =>
      rw [events, lsmLogitechHidppStart]
      split
      · exact ⟨trivial, h.same rfl⟩
      · exact ⟨each_singleton.mpr trivial, follows_cleared log rfl⟩
  | setDevices paths =>
    cases hstep
    rw [events, lsmLogitechHidppSetDevices]
    cases hupdated : updatedLoop s.devices [] paths with
    | none =>
      refine ⟨each_singleton.mpr (updatedLoop_none (Updated.nil s.devices) hupdated), h.distinct, h.named, fun path => ?_⟩
      rw [if_neg Bool.false_ne_true, device_concat]
      exact h.device path
    | some updated =>
      have hslots : Updated s.devices (nonempty paths) updated := updatedLoop_some (Updated.nil s.devices) hupdated
      refine ⟨each_singleton.mpr ?_, h.setDevices hslots⟩
      rw [Right, hslots.card]
      exact hslots.few
  | snapshot path =>
    cases hstep
    refine ⟨each_singleton.mpr (h.snapshot path), h.distinct, h.named, fun other => ?_⟩
    rw [events, device_concat]
    exact h.device other
  | look now again =>
    rw [State.step] at hstep
    split at hstep
    · split at hstep
      · cases hstep
      · cases hstep
        exact h.look now again
    · cases hstep
  | answer answer now =>
    rw [State.step] at hstep
    split at hstep
    · next request hasking =>
      cases hstep
      rw [events, hasking]
      dsimp only
      cases hstop : s.stopRequested with
      | true =>
        rw [hidppWorkerAnswer, hstop]
        exact ⟨trivial, h.same rfl⟩
      | false =>
        refine ⟨each_singleton.mpr trivial, h.change (f := answered answer now) (g := fun device => device.answered now answer)
          (answered_devicePath answer now) (device_answered answer now) (fun _ _ => rfl) ?_⟩
        rw [hidppWorkerAnswer, hstop]
        exact modifySlot_eq_map h.distinct
    · cases hstep
  | quit =>
    rw [State.step] at hstep
    split at hstep
    · split at hstep
      · cases hstep
        exact ⟨trivial, h.same rfl⟩
      · cases hstep
    · cases hstep
  | stop =>
    rw [State.step] at hstep
    split at hstep
    · cases hstep
      exact ⟨trivial, h.same rfl⟩
    · split at hstep
      · cases hstep
      · cases hstep
        exact ⟨trivial, h.same rfl⟩
  | joined =>
    rw [State.step] at hstep
    split at hstep
    · split at hstep
      · cases hstep
        exact ⟨each_singleton.mpr trivial, follows_cleared log rfl⟩
      · cases hstep
    · cases hstep
  | detached =>
    rw [State.step] at hstep
    split at hstep
    · cases hstep
      exact ⟨trivial, h.same rfl⟩
    · cases hstep

end

theorem follows_start : Follows [] {} := ⟨.nil, by simp, fun _ => rfl⟩

def mouse : Path := .ofText (ascii "/dev/hidraw1")

def keyboard : Path := .ofText (ascii "/dev/hidraw2")

/-- Two devices: the first answers, the second does not; then the first is asked once more. -/
def twoDevices : List Action :=
  [.start (.prepared true), .setDevices [mouse, keyboard], .look 100 100, .answer (some ⟨featureUnifiedBattery, 8, {percent := some 70}⟩) 101,
    .look 101 102, .snapshot mouse, .answer none 105, .look 106 106, .look 111 111]

/-- The times that were read, in order. -/
def Event.times : Event → List ℚ
  | .asked _ _ _ now again => [now, again]
  | .slept now _ => [now]
  | .answered _ _ now => [now]
  | _ => []

/-- The device stays tracked. -/
def Keeps (path : Path) : Event → Prop
  | .cleared => False
  | .tracked paths => path ∈ paths
  | _ => True

theorem after_due {path : Path} {start : ℚ} {known : Device} {e : Event} (hkeeps : Keeps path e)
    (hlater : ∀ time ∈ e.times, start ≤ time) (hdue : start + refreshSeconds ≤ known.due) :
    ∃ next, Device.after path (some known) e = some next ∧ start + refreshSeconds ≤ next.due := by
  have hrefresh : refreshSeconds ≤ retrySeconds := by decide +kernel
  cases e with
  | cleared => cases hkeeps
  | tracked paths =>
    have hmem : path ∈ paths := hkeeps
    exact ⟨known, if_pos hmem, hdue⟩
  | refused paths => exact ⟨known, rfl, hdue⟩
  | took other reading => exact ⟨known, rfl, hdue⟩
  | slept now seconds => exact ⟨known, rfl, hdue⟩
  | asked other featureId featureIndex now again =>
    have hagain : start ≤ again := hlater again (by simp [Event.times])
    rw [Device.after]
    split
    · exact ⟨_, rfl, by dsimp only; linarith⟩
    · exact ⟨known, rfl, hdue⟩
  | answered other answer now =>
    have hnow : start ≤ now := hlater now (by simp [Event.times])
    rw [Device.after]
    split
    · cases answer with
      | none => exact ⟨_, rfl, by dsimp only [Device.answered]; linarith⟩
      | some answer => exact ⟨_, rfl, by dsimp only [Device.answered]; linarith⟩
    · exact ⟨known, rfl, hdue⟩

theorem foldl_after_due {path : Path} {start : ℚ} {known : Device} {between : List Event}
    (hkeeps : ∀ e ∈ between, Keeps path e) (hlater : ∀ e ∈ between, ∀ time ∈ e.times, start ≤ time)
    (hdue : start + refreshSeconds ≤ known.due) :
    ∃ next, between.foldl (Device.after path) (some known) = some next ∧ start + refreshSeconds ≤ next.due := by
  induction between generalizing known with
  | nil => exact ⟨known, rfl, hdue⟩
  | cons e rest ih =>
    rw [List.forall_mem_cons] at hkeeps hlater
    obtain ⟨next, hnext, hdue⟩ := after_due hkeeps.1 hlater.1 hdue
    rw [List.foldl_cons, hnext]
    exact ih hkeeps.2 hlater.2 hdue

/-- **No device is asked again within ten seconds** while it stays tracked, if the clock does not go back. -/
theorem hidpp_asked_apart (actions : List Action) (s : State) (hrun : worker.run {} actions = some s)
    (hclock : ((worker.trace events {} actions).flatMap Event.times).Pairwise (· ≤ ·))
    {before between after : List Event} {path : Path} {id₁ id₂ : Nat} {index₁ index₂ : UInt8} {now₁ again₁ now₂ again₂ : ℚ}
    (htrace : worker.trace events {} actions =
      before ++ .asked path id₁ index₁ now₁ again₁ :: (between ++ .asked path id₂ index₂ now₂ again₂ :: after))
    (hkeeps : ∀ e ∈ between, Keeps path e) : now₁ + refreshSeconds ≤ now₂ := by
  have hright := (worker.run_each events Follows (fun _ _ _ _ h hstep => h.step hstep) follows_start hrun).1
  rw [htrace] at hclock hright
  obtain ⟨first, hfirst, -⟩ := hright.at
  rw [List.append_cons, ← List.append_assoc] at hright
  obtain ⟨second, hsecond, -, -, hdue⟩ := hright.at
  rw [List.nil_append] at hfirst hsecond
  -- every time after the first question is later
  simp only [List.flatMap_append, List.flatMap_cons, Event.times] at hclock
  have hlater := (List.pairwise_append.mp hclock).2.1
  rw [List.cons_append, List.pairwise_cons] at hlater
  have hbetween : ∀ e ∈ between, ∀ time ∈ e.times, now₁ ≤ time := fun e he time htime =>
    hlater.1 time (by simp only [List.mem_append, List.mem_cons, List.mem_flatMap]; exact .inr (.inl ⟨e, he, htime⟩))
  have hagain : now₁ ≤ again₁ := hlater.1 again₁ (by simp)
  have hrefresh : refreshSeconds ≤ retrySeconds := by decide +kernel
  have hfirstDue : now₁ + refreshSeconds ≤ ({first with due := again₁ + retrySeconds} : Device).due := by
    dsimp only
    linarith
  obtain ⟨next, hnext, hnextDue⟩ := foldl_after_due hkeeps hbetween hfirstDue
  have hsame : device path (before ++ [.asked path id₁ index₁ now₁ again₁] ++ between) = some next := by
    rw [device, List.foldl_append, ← device, device_concat, hfirst, Device.after, if_pos rfl]
    exact hnext
  rw [hsame, Option.some.injEq] at hsecond
  subst hsecond
  exact hnextDue.trans hdue

theorem hidpp_asked_apart_two : (100 : ℚ) + refreshSeconds ≤ 111 := by
  have hrun : (worker.run {} twoDevices).isSome := by decide +kernel
  obtain ⟨s, hs⟩ := Option.isSome_iff_exists.mp hrun
  have htrace : worker.trace events {} twoDevices =
      [.cleared, .tracked [mouse, keyboard]] ++ .asked mouse 0 0 100 100 ::
        ([.answered mouse (some ⟨featureUnifiedBattery, 8, {percent := some 70}⟩) 101, .asked keyboard 0 0 101 102,
          .took mouse (some {percent := some 70}), .answered keyboard none 105, .slept 106 5] ++
        .asked mouse featureUnifiedBattery 8 111 111 :: []) := by decide +kernel
  exact hidpp_asked_apart twoDevices s hs (by decide +kernel) htrace (by simp [Keeps])

end SystemMonitor.Hidpp.Worker
