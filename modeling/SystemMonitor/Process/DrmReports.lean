import Mathlib.Algebra.BigOperators.Group.Finset.Basic
import SystemMonitor.Lib.FirstMatch
import SystemMonitor.Process.DrmLines

/-! What a file reports of its client.

The items of a file, in any order, report the identity of the client, with the device's minor
number where there is no bus address, the time and the capacity of every engine that has a
time, and the size of every region, resident where that is known. The identity that was read
is the one that is reported (`driver_read`, `device_read`, `clientId_read`); the tables of
the reader may not have the room for the rest (`Roomy`). -/
namespace SystemMonitor.Process.Drm
open Lib

/-! ### Reports -/

namespace Item

def asDriver : Item → Option Text
  | .driver value => some value
  | _ => none

def asPdev : Item → Option Text
  | .pdev value => some value
  | _ => none

def asMinor : Item → Option Text
  | .minor value => some value
  | _ => none

def asClientId : Item → Option (Option Nat)
  | .clientId id => some id
  | _ => none

/-- The capacity that is stated for an engine. -/
def asCapacity (engine : Text) : Item → Option Nat
  | .capacity name count => if name = engine then some count else none
  | _ => none

/-- The size of a region, of one kind. -/
def asSize (kind : Bool) (area : Text) : Item → Option Nat
  | .region resident name bytes => if resident = kind ∧ name = area then some bytes else none
  | _ => none

/-- The engine that an item is about. -/
def engineName : Item → Option Text
  | .capacity name _ => some name
  | .time name _ => some name
  | _ => none

def regionName : Item → Option Text
  | .region _ name _ => some name
  | _ => none

/-- The counters by which a client is recognised. -/
def isCounter : Item → Bool
  | .time _ _ => true
  | .region _ _ _ => true
  | _ => false

end Item

structure EngineReport where
  name : Text
  timeNs : Nat
  capacity : Nat
  deriving DecidableEq

structure RegionReport where
  name : Text
  bytes : Nat
  deriving DecidableEq

/-- A client is known by its driver, its device and its number. -/
structure ClientReport where
  deviceKey : Text
  key : Text
  engines : Finset EngineReport
  regions : Finset RegionReport
  deriving DecidableEq

section
variable (items : List Item)

def driverOf : Text := (items.findSome? Item.asDriver).getD []

/-- The bus address, or else the minor number. -/
def deviceOf : Text :=
  ((items.findSome? Item.asPdev).or ((items.findSome? Item.asMinor).map (ascii "minor-" ++ ·))).getD []

def clientIdOf : Option Nat := (items.findSome? Item.asClientId).getD none

/-- An engine has one unit where nothing else is stated. -/
def capacityOf (engine : Text) : Nat := (items.findSome? (Item.asCapacity engine)).getD 1

/-- The resident size, or else the allocated one. -/
def sizeOf (area : Text) : Nat :=
  ((items.findSome? (Item.asSize true area)).or (items.findSome? (Item.asSize false area))).getD 0

def engineReport : Item → Option EngineReport
  | .time name timeNs => some ⟨name, timeNs, capacityOf items name⟩
  | _ => none

def regionReport : Item → Option RegionReport
  | .region _ name _ => some ⟨name, sizeOf items name⟩
  | _ => none

def reportOf (clientId : Nat) : ClientReport where
  deviceKey := deviceText (driverOf items) (deviceOf items)
  key := clientText (driverOf items) (deviceOf items) clientId
  engines := (items.filterMap (engineReport items)).toFinset
  regions := (items.filterMap (regionReport items)).toFinset

/-- The tables have a row for every name, and every row has a name. -/
def Roomy : Prop :=
  ([] ∉ items.filterMap Item.engineName ∧ (items.filterMap Item.engineName).toFinset.card ≤ maxEngines) ∧
    [] ∉ items.filterMap Item.regionName ∧ (items.filterMap Item.regionName).toFinset.card ≤ maxRegions

instance : Decidable (Roomy items) := inferInstanceAs (Decidable (_ ∧ _))

/-- A file that describes a client, up to the order of its items. -/
structure Described : Prop where
  distinct : (items.map Item.key).Nodup
  sound : ∀ item ∈ items, item.Sound
  fits : ∀ item ∈ items, item.Fits
  addressed : Item.pdev [] ∈ items → ∀ value, Item.minor value ∉ items
  identified : items.any Item.isCounter = true → (clientIdOf items).isSome = true

end

namespace Described
variable {items m : List Item}

theorem eq_of_key (h : Described items) {a b : Item} (ha : a ∈ items) (hb : b ∈ items) (hkey : a.key = b.key) : a = b :=
  List.inj_on_of_nodup_map h.distinct ha hb hkey

theorem nodup (h : Described items) : items.Nodup := List.Nodup.of_map Item.key h.distinct

theorem single {γ : Type} {f : Item → Option γ} {k : Text} (h : Described items)
    (hf : ∀ a, (f a).isSome = true → a.key = k) : Single f items :=
  .of_key h.distinct hf

theorem single_driver (h : Described items) : Single Item.asDriver items :=
  h.single fun a ha => by
    cases a with
    | driver value => rfl
    | _ => cases ha

theorem single_pdev (h : Described items) : Single Item.asPdev items :=
  h.single fun a ha => by
    cases a with
    | pdev value => rfl
    | _ => cases ha

theorem single_minor (h : Described items) : Single Item.asMinor items :=
  h.single fun a ha => by
    cases a with
    | minor value => rfl
    | _ => cases ha

theorem single_clientId (h : Described items) : Single Item.asClientId items :=
  h.single fun a ha => by
    cases a with
    | clientId id => rfl
    | _ => cases ha

theorem single_capacity (h : Described items) (engine : Text) : Single (Item.asCapacity engine) items := by
  refine @single items Nat (Item.asCapacity engine) (ascii "drm-engine-capacity-" ++ engine) h fun a ha => ?_
  cases a with
  | capacity name count =>
    rw [Item.asCapacity] at ha
    split at ha
    · rename_i hname
      rw [Item.key, hname]
    · cases ha
  | _ => cases ha

theorem single_size (h : Described items) (kind : Bool) (area : Text) : Single (Item.asSize kind area) items := by
  refine @single items Nat (Item.asSize kind area) (Item.region kind area 0).key h fun a ha => ?_
  cases a with
  | region resident name bytes =>
    rw [Item.asSize] at ha
    split at ha
    · rename_i hname
      rw [hname.1, hname.2]
      cases kind <;> rfl
    · cases ha
  | _ => cases ha

end Described

/-! ### Identity -/

section
variable (lib : Library)

theorem addEngine_shape (s : ReadState) (name : Text) (timeNs capacity : Nat) (haveTime : Bool) :
    ∃ engines complete, s.addEngine lib name timeNs capacity haveTime =
      {s with client := {s.client with engines := engines}, complete := complete} := by
  rw [ReadState.addEngine]
  split
  · exact ⟨_, s.complete, rfl⟩
  · exact ⟨s.client.engines, false, rfl⟩

theorem setMemoryRegion_shape (s : ReadState) (name : Text) (bytes : Nat) (resident : Bool) :
    ∃ regions complete, s.setMemoryRegion name bytes resident =
      {s with client := {s.client with regions := regions}, complete := complete} := by
  rw [ReadState.setMemoryRegion]
  split
  · exact ⟨_, s.complete, rfl⟩
  · exact ⟨s.client.regions, false, rfl⟩

/-- What an item changes beside the tables. -/
theorem take_scalars (s : ReadState) (item : Item) :
    (s.take lib item).driver = (item.asDriver.map Chars.ofText).getD s.driver ∧
      (s.take lib item).clientId = item.asClientId.getD s.clientId ∧
      (s.take lib item).recognised = (s.recognised || item.isCounter) ∧
      (s.take lib item).client.memoryAvailable = (s.client.memoryAvailable || item.regionName.isSome) := by
  cases item with
  | minor value =>
    rw [ReadState.take]
    split <;> simp [Item.asDriver, Item.asClientId, Item.isCounter, Item.regionName]
  | capacity name count =>
    obtain ⟨engines, complete, h⟩ := addEngine_shape lib s name 0 count false
    simp [ReadState.take, h, Item.asDriver, Item.asClientId, Item.isCounter, Item.regionName]
  | time name timeNs =>
    obtain ⟨engines, complete, h⟩ := addEngine_shape lib s name timeNs 1 true
    simp [ReadState.take, h, Item.asDriver, Item.asClientId, Item.isCounter, Item.regionName]
  | region resident name bytes =>
    obtain ⟨regions, complete, h⟩ := setMemoryRegion_shape s name bytes resident
    simp [ReadState.take, h, Item.asDriver, Item.asClientId, Item.isCounter, Item.regionName]
  | _ => simp [ReadState.take, Item.asDriver, Item.asClientId, Item.isCounter, Item.regionName]

theorem take_device (s : ReadState) {item : Item} (hpdev : item.asPdev = none) (hminor : item.asMinor = none) :
    (s.take lib item).device = s.device := by
  cases item with
  | pdev value => cases hpdev
  | minor value => cases hminor
  | capacity name count =>
    obtain ⟨engines, complete, h⟩ := addEngine_shape lib s name 0 count false
    rw [ReadState.take, h]
  | time name timeNs =>
    obtain ⟨engines, complete, h⟩ := addEngine_shape lib s name timeNs 1 true
    rw [ReadState.take, h]
  | region resident name bytes =>
    obtain ⟨regions, complete, h⟩ := setMemoryRegion_shape s name bytes resident
    simp only [ReadState.take, h]
  | _ => rfl

variable {items : List Item}

theorem driver_read (h : Described items) : (items.foldl (ReadState.take lib) {}).driver.text = driverOf items := by
  have hsingle : Single (fun item : Item => item.asDriver.map (Chars.ofText : Text → Chars 64)) items := by
    intro a ha b hb hfa hfb
    rw [Option.isSome_map] at hfa hfb
    exact h.single_driver a ha b hb hfa hfb
  have hfold := @Single.foldl_replace _ _ _ _ _ hsingle (ReadState.take lib) ReadState.driver
    (fun s a => (take_scalars lib s a).1) {}
  rw [hfold, driverOf, ← Function.comp_def, ← List.map_findSome?]
  cases hvalue : items.findSome? Item.asDriver with
  | none => rfl
  | some value =>
    obtain ⟨item, hitem, hdriver⟩ := h.single_driver.findSome?_eq_some_iff.mp hvalue
    cases item with
    | driver text =>
      cases hdriver
      exact Chars.ofText_text (h.sound _ hitem) (h.fits _ hitem)
    | _ => cases hdriver

theorem clientId_read (h : Described items) : (items.foldl (ReadState.take lib) {}).clientId = clientIdOf items :=
  @Single.foldl_replace _ _ _ _ _ h.single_clientId (ReadState.take lib) ReadState.clientId
    (fun s a => (take_scalars lib s a).2.1) {}

theorem recognised_read (items : List Item) :
    (items.foldl (ReadState.take lib) {}).recognised = items.any Item.isCounter :=
  foldl_flag (fun s a => (take_scalars lib s a).2.2.1) {} items

theorem memoryAvailable_read (items : List Item) :
    (items.foldl (ReadState.take lib) {}).client.memoryAvailable = items.any fun item => item.regionName.isSome :=
  @foldl_flag _ _ (ReadState.take lib) (fun s => s.client.memoryAvailable) _ (fun s a => (take_scalars lib s a).2.2.2) {} items

theorem take_minor (s : ReadState) (value : Text) : (s.take lib (.minor value)).device =
    if s.device.text = [] then .ofText (ascii "minor-" ++ value) else s.device := by
  rw [ReadState.take]
  split <;> rfl

theorem deviceOf_pdev {value : Text} (h : items.findSome? Item.asPdev = some value) : deviceOf items = value := by
  rw [deviceOf, h]
  rfl

theorem deviceOf_minor {value : Text} (hpdev : items.findSome? Item.asPdev = none)
    (hminor : items.findSome? Item.asMinor = some value) : deviceOf items = ascii "minor-" ++ value := by
  rw [deviceOf, hpdev, hminor]
  rfl

theorem deviceOf_none (hpdev : items.findSome? Item.asPdev = none) (hminor : items.findSome? Item.asMinor = none) :
    deviceOf items = [] := by
  rw [deviceOf, hpdev, hminor]
  rfl

theorem mem_of_asPdev {value : Text} (h : items.findSome? Item.asPdev = some value) : Item.pdev value ∈ items := by
  obtain ⟨item, hitem, hfound⟩ := List.exists_of_findSome?_eq_some h
  cases item with
  | pdev text => exact Option.some.inj hfound ▸ hitem
  | _ => cases hfound

theorem mem_of_asMinor {value : Text} (h : items.findSome? Item.asMinor = some value) : Item.minor value ∈ items := by
  obtain ⟨item, hitem, hfound⟩ := List.exists_of_findSome?_eq_some h
  cases item with
  | minor text => exact Option.some.inj hfound ▸ hitem
  | _ => cases hfound

/-- One item more of those that are described. -/
theorem device_step (h : Described items) {l : List Item} {last : Item} (hl : ∀ item ∈ l ++ [last], item ∈ items)
    {s : ReadState} (hs : s.device.text = deviceOf l) : (s.take lib last).device.text = deviceOf (l ++ [last]) := by
  have hlast := hl last (List.mem_append_right _ (List.mem_singleton_self last))
  cases last with
  | pdev value =>
    have hvalue : (l ++ [Item.pdev value]).findSome? Item.asPdev = some value := by
      rw [List.findSome?_append]
      cases hfound : l.findSome? Item.asPdev with
      | none => rfl
      | some other =>
        have hsame := h.eq_of_key (hl _ (List.mem_append_left _ (mem_of_asPdev hfound))) hlast rfl
        exact congrArg some (Item.pdev.inj hsame)
    rw [deviceOf_pdev hvalue]
    exact Chars.ofText_text (h.sound _ hlast) (h.fits _ hlast)
  | minor value =>
    have hpdev : (l ++ [Item.minor value]).findSome? Item.asPdev = l.findSome? Item.asPdev := by
      rw [List.findSome?_append]
      exact Option.or_none
    have hminor : (l ++ [Item.minor value]).findSome? Item.asMinor = some value := by
      rw [List.findSome?_append]
      cases hfound : l.findSome? Item.asMinor with
      | none => rfl
      | some other =>
        have hsame := h.eq_of_key (hl _ (List.mem_append_left _ (mem_of_asMinor hfound))) hlast rfl
        exact congrArg some (Item.minor.inj hsame)
    rw [take_minor]
    cases hfound : l.findSome? Item.asPdev with
    | some address =>
      have haddress := hl _ (List.mem_append_left _ (mem_of_asPdev hfound))
      have hne : address ≠ [] := fun hnil => h.addressed (hnil ▸ haddress) value hlast
      rw [deviceOf_pdev hfound] at hs
      rw [if_neg (hs ▸ hne), deviceOf_pdev (hpdev.trans hfound), hs]
    | none =>
      rw [deviceOf_minor (hpdev.trans hfound) hminor]
      cases hother : l.findSome? Item.asMinor with
      | none =>
        have hfits : (ascii "minor-" ++ value).length ≤ 96 - 1 := by
          have hvalue : value.length ≤ 89 := h.fits _ hlast
          rw [List.length_append]
          exact Nat.add_le_add (show (ascii "minor-").length ≤ 6 by decide) hvalue
        have hplain : 0 ∉ ascii "minor-" ++ value := by
          rw [List.mem_append, not_or]
          exact ⟨by decide, h.sound _ hlast⟩
        rw [if_pos (hs.trans (deviceOf_none hfound hother))]
        exact Chars.ofText_text hplain hfits
      | some other =>
        have hsame := h.eq_of_key (hl _ (List.mem_append_left _ (mem_of_asMinor hother))) hlast rfl
        have hne : ascii "minor-" ++ other ≠ [] := List.append_ne_nil_of_left_ne_nil (by decide) other
        rw [deviceOf_minor hfound hother] at hs
        rw [if_neg (hs ▸ hne), hs, Item.minor.inj hsame]
  | _ =>
    rw [take_device lib _ rfl rfl, hs, deviceOf, deviceOf]
    simp [Item.asPdev, Item.asMinor]

/-- The bus address wins wherever it stands, and the minor number is used without one. -/
theorem device_read (h : Described items) : (items.foldl (ReadState.take lib) {}).device.text = deviceOf items := by
  have hall : ∀ l : List Item, (∀ item ∈ l, item ∈ items) →
      (l.foldl (ReadState.take lib) {}).device.text = deviceOf l := by
    intro l hl
    induction l using List.reverseRecOn with
    | nil => rfl
    | append_singleton l last ih =>
      rw [List.foldl_append]
      exact device_step lib h hl (ih fun item hitem => hl item (List.mem_append_left _ hitem))
  exact hall items fun _ hitem => hitem

end

end SystemMonitor.Process.Drm
