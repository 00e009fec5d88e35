import SystemMonitor.Process.DrmTables

/-! Reading the file of a descriptor.

A file that describes a client has short lines, no item twice, and names within the buffers.
What it reports (`Descriptor.reading`) does not depend on the order of its lines
(`reading_perm`), and the reader makes of it a client that stands for the report
(`readClientFile_described`), unless its tables do not have the room. -/
namespace SystemMonitor.Process.Drm
open Lib

/-! ### Order -/

section
variable {items m : List Item}

theorem clientIdOf_perm (h : Described items) (hm : items.Perm m) : clientIdOf items = clientIdOf m := by
  rw [clientIdOf, h.single_clientId.findSome?_congr fun _ => hm.mem_iff, clientIdOf]

theorem Described.perm (h : Described items) (hm : items.Perm m) : Described m where
  distinct := (hm.map Item.key).nodup_iff.mp h.distinct
  sound item hitem := h.sound item (hm.mem_iff.mpr hitem)
  fits item hitem := h.fits item (hm.mem_iff.mpr hitem)
  addressed hpdev value hminor := h.addressed (hm.mem_iff.mpr hpdev) value (hm.mem_iff.mpr hminor)
  identified hany := by
    rw [← clientIdOf_perm h hm]
    exact h.identified (hm.any_eq.trans hany)

theorem roomy_perm (hm : items.Perm m) : Roomy items ↔ Roomy m := by
  rw [Roomy, Roomy, (hm.filterMap _).mem_iff, (hm.filterMap _).mem_iff, List.toFinset_eq_of_perm _ _ (hm.filterMap _),
    List.toFinset_eq_of_perm _ _ (hm.filterMap _)]

/-- The order of the items does not matter. -/
theorem reportOf_perm (h : Described items) (hm : items.Perm m) (id : Nat) : reportOf items id = reportOf m id := by
  have hdriver : driverOf items = driverOf m := by
    rw [driverOf, h.single_driver.findSome?_congr fun _ => hm.mem_iff, driverOf]
  have hdevice : deviceOf items = deviceOf m := by
    rw [deviceOf, h.single_pdev.findSome?_congr fun _ => hm.mem_iff, h.single_minor.findSome?_congr fun _ => hm.mem_iff,
      deviceOf]
  have hengine : engineReport items = engineReport m := by
    funext item
    cases item with
    | time name timeNs =>
      rw [engineReport, engineReport, capacityOf, (h.single_capacity name).findSome?_congr fun _ => hm.mem_iff, capacityOf]
    | _ => rfl
  have hregion : regionReport items = regionReport m := by
    funext item
    cases item with
    | region resident name bytes =>
      rw [regionReport, regionReport, sizeOf, (h.single_size true name).findSome?_congr fun _ => hm.mem_iff,
        (h.single_size false name).findSome?_congr fun _ => hm.mem_iff, sizeOf]
    | _ => rfl
  rw [reportOf, reportOf, hdriver, hdevice, hengine, hregion, List.toFinset_eq_of_perm _ _ (hm.filterMap _),
    List.toFinset_eq_of_perm _ _ (hm.filterMap _)]

end

/-! ### Descriptors -/

variable (lib : Library)

/-- A file that describes a client, if it is a client's. -/
structure DrmFile where
  lines : List Text
  plain : Plain lines
  distinct : ((itemsOf lib lines).map Item.key).Nodup
  fits : ∀ item ∈ itemsOf lib lines, item.Fits
  addressed : Item.pdev [] ∈ itemsOf lib lines → ∀ value, Item.minor value ∉ itemsOf lib lines
  identified : (itemsOf lib lines).any Item.isCounter = true → (clientIdOf (itemsOf lib lines)).isSome = true

structure Descriptor where
  name : Text
  /-- `none`: it cannot be opened. -/
  file : Option (DrmFile lib)
  /-- It is opened, and reading or closing it fails. -/
  failed : Bool

inductive Reading where
  | skipped
  | failed
  | client (report : ClientReport)
  deriving DecidableEq

variable {lib}

def DrmFile.items (f : DrmFile lib) : List Item := itemsOf lib f.lines

theorem DrmFile.described (f : DrmFile lib) : Described f.items where
  distinct := f.distinct
  sound item hitem := by
    obtain ⟨line, hline, hsome⟩ := List.mem_filterMap.mp hitem
    exact itemOf_sound lib (f.plain.noNul line hline) hsome
  fits := f.fits
  addressed := f.addressed
  identified := f.identified

/-- What a file reports. -/
def DrmFile.reading (f : DrmFile lib) (failed : Bool) : Reading :=
  if failed = true ∨ ¬ Roomy f.items then .failed
  else if f.items.any Item.isCounter then
    match clientIdOf f.items with
    | some id => .client (reportOf f.items id)
    | none => .skipped
  else .skipped

namespace Descriptor
variable (d : Descriptor lib) (directory : Text)

def entry : FdEntry where
  name := d.name
  file := d.file.map fun f => ⟨textOf f.lines, d.failed⟩

/-- The entry is a descriptor's, and its path fits. -/
def listed : Bool :=
  (lib.helpers.parseU64Range d.name 0 intMax).isSome && decide ((lib.fullPath directory d.name).length < 640)

def reading : Reading :=
  if d.listed directory then
    match d.file with
    | some f => f.reading d.failed
    | none => .skipped
  else .skipped

end Descriptor

/-- The lines of a file in another order. -/
theorem DrmFile.reading_perm {f g : DrmFile lib} (h : f.lines.Perm g.lines) (failed : Bool) :
    f.reading failed = g.reading failed := by
  have hitems : f.items.Perm g.items := h.filterMap _
  rw [DrmFile.reading, DrmFile.reading, clientIdOf_perm f.described hitems, hitems.any_eq]
  simp only [roomy_perm hitems, reportOf_perm f.described hitems]

/-- The file with its lines in another order. -/
def DrmFile.reordered (f : DrmFile lib) {lines : List Text} (h : f.lines.Perm lines) : DrmFile lib :=
  have plain : Plain lines :=
    ⟨fun line hline => f.plain.noNewline line (h.mem_iff.mpr hline),
      fun line hline => f.plain.noNul line (h.mem_iff.mpr hline), fun line hline => f.plain.short line (h.mem_iff.mpr hline)⟩
  have described : Described (itemsOf lib lines) := f.described.perm (h.filterMap _)
  { lines := lines
    plain := plain
    distinct := described.distinct
    fits := described.fits
    addressed := described.addressed
    identified := described.identified }

/-! ### What the reader makes of a file -/

def clientReport (client : LsmDrmClient) : ClientReport where
  deviceKey := client.deviceKey.text
  key := client.key.text
  engines := ((client.engines.filter (·.timeAvailable)).map GpuEngine.report).toFinset
  regions := (client.regions.map LsmDrmMemoryRegion.report).toFinset

/-- A client that stands for what a file reports. -/
structure Stands (client : LsmDrmClient) (report : ClientReport) : Prop where
  eq : clientReport client = report
  engines : ((client.engines.filter (·.timeAvailable)).map GpuEngine.report).Nodup
  regions : (client.regions.map LsmDrmMemoryRegion.report).Nodup
  times : ∀ row ∈ client.engines, row.timeNs ≤ uint64Max
  capacities : ∀ row ∈ client.engines, 1 ≤ row.capacity
  memory : client.memoryAvailable = true ↔ report.regions.Nonempty

theorem length_deviceText {driver device : Text} (hdriver : driver.length ≤ 63) (hdevice : device.length ≤ 95) :
    (deviceText driver device).length ≤ 159 := by
  rw [deviceText, List.length_append, List.length_cons]
  omega

theorem length_clientText {driver device : Text} {id : Nat} (hdriver : driver.length ≤ 63) (hdevice : device.length ≤ 95)
    (hid : id ≤ uint64Max) : (clientText driver device id).length ≤ 180 := by
  have hdigits : (Decimal.print id).length ≤ 20 :=
    Decimal.length_print (by decide) (Nat.lt_of_le_of_lt hid (by decide))
  have htext := length_deviceText hdriver hdevice
  rw [clientText, List.length_append, List.length_cons]
  omega

theorem nul_notMem_deviceText {driver device : Text} (hdriver : 0 ∉ driver) (hdevice : 0 ∉ device) :
    0 ∉ deviceText driver device := by
  rw [deviceText, List.mem_append, List.mem_cons, not_or, not_or]
  exact ⟨hdriver, by decide, hdevice⟩

theorem nul_notMem_clientText {driver device : Text} (hdriver : 0 ∉ driver) (hdevice : 0 ∉ device) (id : Nat) :
    0 ∉ clientText driver device id := by
  rw [clientText, List.mem_append, List.mem_cons, not_or, not_or]
  refine ⟨nul_notMem_deviceText hdriver hdevice, by decide, fun hmem => ?_⟩
  exact absurd (Decimal.mem_print hmem) (by decide)

/-- A key tells the clients apart: the name of a driver has no colon. -/
theorem clientText_injective {driver device driver' device' : Text} {id id' : Nat} (hdriver : 58 ∉ driver)
    (hdriver' : 58 ∉ driver') (h : clientText driver device id = clientText driver' device' id') :
    driver = driver' ∧ device = device' ∧ id = id' := by
  have hdigits : ∀ n, 58 ∉ Decimal.print n := fun n hmem => absurd (Decimal.mem_print hmem) (by decide)
  have hcut := CStrings.cutLast_append (hdigits id) (deviceText driver device)
  rw [show deviceText driver device ++ 58 :: Decimal.print id = _ from h, clientText,
    CStrings.cutLast_append (hdigits id')] at hcut
  obtain ⟨hdevices, hids⟩ := Prod.mk.inj (Option.some.inj hcut)
  have hfield : splitField (deviceText driver device) = some (driver, device) :=
    splitField_eq_some_iff.mpr ⟨rfl, hdriver⟩
  have hfield' : splitField (deviceText driver device) = some (driver', device') :=
    splitField_eq_some_iff.mpr ⟨hdevices.symm, hdriver'⟩
  obtain ⟨hdrivers, hrest⟩ := Prod.mk.inj (Option.some.inj (hfield.symm.trans hfield'))
  have hparse := Decimal.parse_print id
  rw [← hids, Decimal.parse_print] at hparse
  exact ⟨hdrivers, hrest, (Option.some.inj hparse).symm⟩

theorem regions_nonempty_iff (items : List Item) :
    (items.filterMap (regionReport items)).toFinset.Nonempty ↔ (items.any fun item => item.regionName.isSome) = true := by
  rw [List.toFinset_nonempty_iff, List.any_eq_true]
  constructor
  · intro hne
    obtain ⟨report, hreport⟩ := List.exists_mem_of_ne_nil _ hne
    obtain ⟨item, hitem, hsome⟩ := List.mem_filterMap.mp hreport
    cases item with
    | region resident name bytes => exact ⟨_, hitem, rfl⟩
    | _ => cases hsome
  · intro ⟨item, hitem, hname⟩
    cases item with
    | region resident name bytes => exact List.ne_nil_of_mem (List.mem_filterMap.mpr ⟨_, hitem, rfl⟩)
    | _ => cases hname

section
variable {items : List Item} {s : ReadState}

/-- The tables that were read. -/
theorem tables_read (h : Described items) (hroomy : Roomy items) :
    engineTable lib items = some (items.foldl (ReadState.take lib) {}).client.engines ∧
      regionTable items = some (items.foldl (ReadState.take lib) {}).client.regions := by
  have hboth := (@tables_isSome lib items h).mpr hroomy
  obtain ⟨engines, hengines⟩ := Option.isSome_iff_exists.mp hboth.1
  obtain ⟨regions, hregions⟩ := Option.isSome_iff_exists.mp hboth.2
  have hholds := @holds_read lib items
  rw [hengines, hregions, hholds.engines engines hengines, hholds.regions regions hregions]
  exact ⟨rfl, rfl⟩

theorem clientIdOf_le (h : Described items) {id : Nat} (hid : clientIdOf items = some id) : id ≤ uint64Max := by
  rw [clientIdOf] at hid
  cases hfound : items.findSome? Item.asClientId with
  | none =>
    rw [hfound] at hid
    cases hid
  | some found =>
    obtain ⟨item, hitem, hsome⟩ := List.exists_of_findSome?_eq_some hfound
    rw [hfound] at hid
    cases item with
    | clientId number =>
      obtain rfl := Option.some.inj hsome
      exact h.sound _ hitem id hid
    | _ => cases hsome

/-- What was read stands for what is reported. -/
theorem stands_read (h : Described items) (hroomy : Roomy items) {id : Nat} (hid : clientIdOf items = some id)
    (client : LsmDrmClient) (hclient : client = {(items.foldl (ReadState.take lib) {}).client with
      deviceKey := .ofText (deviceText (driverOf items) (deviceOf items))
      key := .ofText (clientText (driverOf items) (deviceOf items) id)}) : Stands client (reportOf items id) := by
  obtain ⟨hengines, hregions⟩ := @tables_read lib items h hroomy
  have hdriver := driver_read lib h
  have hdevice := device_read lib h
  have hbound := clientIdOf_le h hid
  have hdriverLength : (driverOf items).length ≤ 63 := hdriver ▸ (items.foldl (ReadState.take lib) {}).driver.fits
  have hdeviceLength : (deviceOf items).length ≤ 95 := hdevice ▸ (items.foldl (ReadState.take lib) {}).device.fits
  have hdriverPlain : 0 ∉ driverOf items := hdriver ▸ (items.foldl (ReadState.take lib) {}).driver.nulFree
  have hdevicePlain : 0 ∉ deviceOf items := hdevice ▸ (items.foldl (ReadState.take lib) {}).device.nulFree
  have htallied := Tally.Rules.addAll_tallied h.engine_labelled hengines
  have htalliedRegions := Tally.Rules.addAll_tallied h.region_labelled hregions
  subst hclient
  refine ⟨?_, ?_, ?_, ?_, ?_, ?_⟩
  · have hdeviceText : (Chars.ofText (deviceText (driverOf items) (deviceOf items)) : Chars 192).text =
        deviceText (driverOf items) (deviceOf items) :=
      Chars.ofText_text (nul_notMem_deviceText hdriverPlain hdevicePlain)
        ((length_deviceText hdriverLength hdeviceLength).trans (by decide))
    have hclientText : (Chars.ofText (clientText (driverOf items) (deviceOf items) id) : Chars 192).text =
        clientText (driverOf items) (deviceOf items) id :=
      Chars.ofText_text (nul_notMem_clientText hdriverPlain hdevicePlain id)
        ((length_clientText hdriverLength hdeviceLength hbound).trans (by decide))
    rw [clientReport, reportOf, hdeviceText, hclientText, ← engines_read h hengines, ← regions_read h hregions]
  · refine List.Nodup.of_map EngineReport.name ?_
    rw [List.map_map]
    exact htallied.nodup.sublist (List.filter_sublist.map _)
  · refine List.Nodup.of_map RegionReport.name ?_
    rw [List.map_map]
    exact htalliedRegions.nodup
  · intro row hrow
    rw [rows_timeNs htallied (fun e he => engine_timeNs_le h he) (engine_timeNs_eq_zero items) hrow]
    exact Nat.min_le_right _ _
  · intro row hrow
    exact ((rows_capacity htallied hrow row.capacity).mp le_rfl).1
  · rw [reportOf, regions_nonempty_iff, ← memoryAvailable_read lib]

end

/-- **The reader finds what a file reports**, or is incomplete when its tables do not have the room. -/
theorem readClientFile_described (f : DrmFile lib) (failed : Bool) (path : Text) :
    (f.reading failed = .failed ∧ (readClientFile lib path (some ⟨textOf f.lines, failed⟩)).complete = false) ∨
    (f.reading failed = .skipped ∧ (readClientFile lib path (some ⟨textOf f.lines, failed⟩)).complete = true ∧
      (readClientFile lib path (some ⟨textOf f.lines, failed⟩)).recognised = false) ∨
    ∃ report, f.reading failed = .client report ∧
      (readClientFile lib path (some ⟨textOf f.lines, failed⟩)).complete = true ∧
      (readClientFile lib path (some ⟨textOf f.lines, failed⟩)).recognised = true ∧
      Stands (readClientFile lib path (some ⟨textOf f.lines, failed⟩)).client report := by
  have hlines : (linesOf (textOf f.lines)).foldl (readLine lib) {} = f.items.foldl (ReadState.take lib) {} := by
    rw [foldl_readLine, itemsOf_linesOf lib f.plain, DrmFile.items]
  have hcomplete := @complete_read lib f.items f.described
  have hid := clientId_read lib f.described
  have hdriver := driver_read lib f.described
  have hdevice := device_read lib f.described
  simp only [readClientFile, hlines, DrmFile.reading, recognised_read lib f.items, hid, hdriver, hdevice]
  by_cases hbad : failed = true ∨ ¬ Roomy f.items
  · have hfalse : ((f.items.foldl (ReadState.take lib) {}).complete && !failed) = false := by
      rw [Bool.and_eq_false_iff, Bool.not_eq_false', or_comm, Bool.eq_false_iff, ne_eq, hcomplete]
      exact hbad
    refine .inl ⟨if_pos hbad, ?_⟩
    split
    · exact hfalse
    · exact hfalse
  have htrue : ((f.items.foldl (ReadState.take lib) {}).complete && !failed) = true := by
    rw [not_or, not_not] at hbad
    rw [Bool.and_eq_true, hcomplete, Bool.not_eq_true', ← Bool.not_eq_true]
    exact hbad.symm
  rw [if_neg hbad]
  cases hany : f.items.any Item.isCounter with
  | false => exact .inr (.inl ⟨rfl, htrue, rfl⟩)
  | true =>
    obtain ⟨id, hidentified⟩ := Option.isSome_iff_exists.mp (f.identified hany)
    have hnumber : clientIdOf f.items = some id := hidentified
    rw [hnumber]
    refine .inr (.inr ⟨reportOf f.items id, rfl, htrue, rfl, ?_⟩)
    exact stands_read f.described (not_not.mp (not_or.mp hbad).2) hnumber _ rfl

end SystemMonitor.Process.Drm
