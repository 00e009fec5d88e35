import SystemMonitor.Smbios.Encoding
import Mathlib.Data.List.Forall2

/-! What the memory page is told about a DMI table.

`Folded` is what the walk has gathered from the structures so far: how many memory
devices, how many of them populated, one entry for each of those while there is
room. `EncodedTable` is a table written by the specification's rules, and
`lsmSmbiosMemoryRead_decodes` the result: the call never reads outside a table, its
counts agree with its entries, and of an encoded table it returns the devices in
order, each text being the string its index selects, as far as its buffer takes it. -/
namespace SystemMonitor.Smbios
open Lib Lib.Loop

/-! ### What the walk gathers -/

/-- Zero stands for none. -/
structure LeastPositive (speeds : List Nat) (least : Nat) : Prop where
  below : ∀ speed ∈ speeds, 0 < speed → 0 < least ∧ least ≤ speed
  attained : 0 < least → least ∈ speeds

theorem LeastPositive.noteSpeed {speeds : List Nat} {least : Nat} (h : LeastPositive speeds least) (speed : Nat) :
    LeastPositive (speeds ++ [speed]) (noteSpeed speed least) := by
  unfold Smbios.noteSpeed
  split
  · rename_i hbetter
    refine ⟨fun other hother hpositive => ?_, fun _ => List.mem_append_right _ (List.mem_singleton.mpr rfl)⟩
    rcases List.mem_append.mp hother with hold | hnew
    · have hbelow := h.below other hold hpositive
      omega
    · rw [List.mem_singleton.mp hnew]
      exact ⟨hbetter.1, Nat.le_refl _⟩
  · rename_i hbetter
    refine ⟨fun other hother hpositive => ?_, fun hleast => List.mem_append_left _ (h.attained hleast)⟩
    rcases List.mem_append.mp hother with hold | hnew
    · exact h.below other hold hpositive
    · rw [List.mem_singleton.mp hnew] at hpositive ⊢
      omega

def memoryDevices (found : List Structure) : List Structure := found.filter fun s => s.type = smbiosTypeMemoryDevice

section
variable (L : SmbiosLibrary)

def populatedDevices (found : List Structure) : List Structure := (memoryDevices found).filter (Structure.populated L)

structure Folded (found : List Structure) (walk : Walk) : Prop where
  slotsTotal : walk.info.slotsTotal = (memoryDevices found).length
  slotsUsed : walk.info.slotsUsed = (populatedDevices L found).length
  modules : walk.info.modules = ((populatedDevices L found).map (Structure.module L)).take lsmSmbiosMaxModules
  complete : walk.modulesComplete = decide ((populatedDevices L found).length ≤ lsmSmbiosMaxModules)
  least : LeastPositive ((populatedDevices L found).map (Structure.speed L)) walk.info.speedMhz

theorem folded_start : Folded L [] ⟨.cleared, true⟩ :=
  ⟨rfl, rfl, rfl, rfl, fun _ h => (nomatch h), fun h => (nomatch h)⟩

variable {L} {found : List Structure} {walk : Walk}

/-- **One more structure.** -/
theorem Folded.step (h : Folded L found walk) (s : Structure) : Folded L (found ++ [s]) (addStructure L walk s) := by
  have hdevices : memoryDevices (found ++ [s]) =
      memoryDevices found ++ if s.type = smbiosTypeMemoryDevice then [s] else [] := by
    rw [memoryDevices, List.filter_append, List.filter_singleton, Bool.cond_decide]
    rfl
  have hpopulated : populatedDevices L (found ++ [s]) =
      populatedDevices L found ++ if s.type = smbiosTypeMemoryDevice ∧ s.populated L = true then [s] else [] := by
    rw [populatedDevices, hdevices, List.filter_append]
    by_cases hmemory : s.type = smbiosTypeMemoryDevice
    · rw [if_pos hmemory, List.filter_singleton, Bool.cond_eq_ite]
      simp only [hmemory, true_and]
      rfl
    · simp only [hmemory, if_false, false_and, List.filter_nil]
      rfl
  by_cases hmemory : s.type = smbiosTypeMemoryDevice
  · rw [if_pos hmemory] at hdevices
    rw [addStructure, if_pos hmemory, addDevice]
    have htotal : walk.info.slotsTotal + 1 = (memoryDevices (found ++ [s])).length := by
      rw [hdevices, List.length_append, h.slotsTotal, List.length_singleton]
    by_cases hused : s.populated L = true
    · rw [if_pos ⟨hmemory, hused⟩] at hpopulated
      have hcount : (populatedDevices L (found ++ [s])).length = (populatedDevices L found).length + 1 := by
        rw [hpopulated, List.length_append, List.length_singleton]
      have hmodules := congrArg List.length h.modules
      rw [List.length_take, List.length_map] at hmodules
      have hleast : LeastPositive ((populatedDevices L (found ++ [s])).map (Structure.speed L))
          (noteSpeed (s.speed L) walk.info.speedMhz) := by
        rw [hpopulated, List.map_append]
        exact h.least.noteSpeed (s.speed L)
      have husedCount : walk.info.slotsUsed + 1 = (populatedDevices L (found ++ [s])).length := by
        rw [hcount, h.slotsUsed]
      dsimp only
      rw [if_pos hused]
      by_cases hroom : walk.info.modules.length < lsmSmbiosMaxModules
      · have hfits : (populatedDevices L found).length + 1 ≤ lsmSmbiosMaxModules := by omega
        rw [dif_pos hroom]
        refine ⟨htotal, husedCount, ?_, ?_, hleast⟩
        · show walk.info.modules ++ [s.module L] = _
          rw [h.modules, hpopulated, List.map_append, List.take_of_length_le (by rw [List.length_map]; omega),
            List.take_of_length_le (by rw [List.length_append, List.length_map]; exact hfits)]
          rfl
        · show walk.modulesComplete = _
          rw [h.complete, hcount, decide_eq_true hfits, decide_eq_true (by omega)]
      · rw [dif_neg hroom]
        refine ⟨htotal, husedCount, ?_, ?_, hleast⟩
        · show walk.info.modules = _
          rw [h.modules, hpopulated, List.map_append, List.take_append_of_le_length (by rw [List.length_map]; omega)]
        · rw [hcount, decide_eq_false (by omega)]
    · rw [if_neg fun hboth => hused hboth.2, List.append_nil] at hpopulated
      dsimp only
      rw [if_neg hused]
      refine ⟨htotal, ?_, ?_, ?_, ?_⟩
      · rw [hpopulated]; exact h.slotsUsed
      · rw [hpopulated]; exact h.modules
      · rw [hpopulated]; exact h.complete
      · rw [hpopulated]; exact h.least
  · rw [if_neg hmemory, List.append_nil] at hdevices
    rw [if_neg fun hboth => hmemory hboth.1, List.append_nil] at hpopulated
    rw [addStructure, if_neg hmemory]
    refine ⟨?_, ?_, ?_, ?_, ?_⟩
    · rw [hdevices]; exact h.slotsTotal
    · rw [hpopulated]; exact h.slotsUsed
    · rw [hpopulated]; exact h.modules
    · rw [hpopulated]; exact h.complete
    · rw [hpopulated]; exact h.least

/-- **All of them.** -/
theorem folded_foldl (L : SmbiosLibrary) (found : List Structure) :
    Folded L found (found.foldl (addStructure L) ⟨.cleared, true⟩) := by
  induction found using List.reverseRecOn with
  | nil => exact folded_start L
  | append_singleton found s ih =>
    rw [List.foldl_append]
    exact ih.step s

end

/-! ### What a text field shows -/

/-- A string in a buffer of `n` bytes. -/
structure ShowsText (L : SmbiosLibrary) (n : Nat) (trimmed text : Text) : Prop where
  unusable : trimmed = [] ∨ L.utf8Validate trimmed = false → text = ascii "N/A"
  whole : trimmed ≠ [] → L.utf8Validate trimmed = true → trimmed.length < n → text = trimmed
  /-- The longest valid beginning that leaves room for the terminator. -/
  cut : L.utf8Validate trimmed = true → n ≤ trimmed.length → ∃ kept < n,
    (∀ k, kept < k → k < n → L.utf8Validate (trimmed.take k) = false) ∧
    (kept = 0 ∧ text = ascii "N/A" ∨
      0 < kept ∧ L.utf8Validate (trimmed.take kept) = true ∧ text = trimmed.take kept)

/-- What a buffer of `n` bytes shows of the string selected for it. -/
def Shows (L : SmbiosLibrary) (n : Nat) (selected : Option Text) (text : Text) : Prop :=
  match selected with
  | none => text = ascii "N/A"
  | some whole => ShowsText L n (whole.rdropWhile blank) text

section
variable (L : SmbiosLibrary) {n : Nat}

theorem notAvailable_text (hn : 4 ≤ n) : (notAvailable : Chars n).text = ascii "N/A" :=
  Chars.ofText_text (by decide) (by show 3 ≤ n - 1; omega)

theorem shows_shown (hn : 4 ≤ n) {whole : Text} (hnul : 0 ∉ whole) :
    Shows L n (some whole) (shown L whole : Chars n).text := by
  have htrimmed : 0 ∉ whole.rdropWhile blank := fun h => hnul ((List.rdropWhile_prefix blank whole).mem h)
  show ShowsText L n (whole.rdropWhile blank) _
  rw [shown]
  generalize whole.rdropWhile blank = trimmed at htrimmed
  dsimp only
  cases hvalid : L.utf8Validate trimmed with
  | false =>
    rw [if_pos Bool.false_ne_true, notAvailable_text hn]
    exact ⟨fun _ => rfl, fun _ h => absurd (hvalid.symm.trans h) (by decide),
      fun h => absurd (hvalid.symm.trans h) (by decide)⟩
  | true =>
    have hkept : keptLength L n trimmed ≤ n - 1 := by
      by_cases hlong : n ≤ trimmed.length
      · exact (keptLength_cut L hlong).1
      · rw [keptLength_whole L (by omega)]
        omega
    have htext : (Chars.ofText (trimmed.take (keptLength L n trimmed)) : Chars n).text =
        trimmed.take (keptLength L n trimmed) :=
      Chars.ofText_text (fun h => htrimmed (List.mem_of_mem_take h)) ((List.length_take_le ..).trans hkept)
    have hshown : (if (Chars.ofText (trimmed.take (keptLength L n trimmed)) : Chars n).text = [] then notAvailable
        else (Chars.ofText (trimmed.take (keptLength L n trimmed)) : Chars n)).text =
          if trimmed.take (keptLength L n trimmed) = [] then ascii "N/A" else trimmed.take (keptLength L n trimmed) := by
      rw [htext]
      split
      · exact notAvailable_text hn
      · exact htext
    rw [if_neg (not_not.mpr rfl), hshown]
    refine ⟨?_, ?_, ?_⟩
    · intro hunusable
      rw [hunusable.resolve_right (by rw [hvalid]; decide), List.take_nil, if_pos rfl]
    · intro hne _ hfits
      rw [keptLength_whole L hfits, List.take_length, if_neg hne]
    · intro _ hlong
      obtain ⟨hbound, hgreatest, hspec⟩ := keptLength_cut L hlong
      refine ⟨keptLength L n trimmed, by omega, fun k hk hkn => hgreatest k hk (by omega), ?_⟩
      by_cases hzero : keptLength L n trimmed = 0
      · left
        rw [hzero, List.take_zero, if_pos rfl]
        exact ⟨rfl, rfl⟩
      · right
        have hne : trimmed.take (keptLength L n trimmed) ≠ [] := by
          intro h
          have hlength := congrArg List.length h
          rw [List.length_take, List.length_nil] at hlength
          omega
        rw [if_neg hne]
        exact ⟨Nat.pos_of_ne_zero hzero, hspec hzero, rfl⟩

/-- **A text field of a module shows the string its index selects.** -/
theorem shows_textField (hn : 4 ≤ n) (e : Encoded) (k : Nat) :
    Shows L n (e.selected k) (textField L e.toStructure.strings (e.toStructure.field k) : Chars n).text := by
  have hindex : e.toStructure.field k = (e.formatted[k]?).getD 0 := List.getD_eq_getElem?_getD ..
  rw [hindex, Encoded.selected]
  generalize (e.formatted[k]?).getD 0 = stringIndex
  show Shows L n _ (textField L ([0].intercalate e.strings) stringIndex : Chars n).text
  by_cases hstrings : e.strings = []
  · have hnone : (if stringIndex = 0 then none else e.strings[stringIndex.toNat - 1]?) = none := by
      rw [hstrings, List.getElem?_nil, ite_self]
    rw [hnone, hstrings, List.intercalate_nil, textField_nil]
    exact notAvailable_text hn
  · have hnul : ∀ text ∈ e.strings, 0 ∉ text := fun text htext => (e.writable text htext).2
    rw [textField, selected, List.splitOn_intercalate 0 hnul hstrings]
    cases hselected : (if stringIndex = 0 then none else e.strings[stringIndex.toNat - 1]?) with
    | none => exact notAvailable_text hn
    | some whole =>
      refine shows_shown L hn ?_
      split at hselected
      · cases hselected
      · exact hnul whole (List.mem_of_getElem? hselected)

end

/-! ### What the call returns -/

/-- The summary of an answer agrees with its entries. -/
structure Consistent (info : LsmSmbiosMemoryInfo) : Prop where
  slots : info.slotsUsed ≤ info.slotsTotal
  modules : info.moduleCount = info.slotsUsed
  least : LeastPositive (info.modules.map LsmSmbiosMemoryModule.speedMhz) info.speedMhz

/-- An entry for a populated device. -/
structure ModuleOf (L : SmbiosLibrary) (e : Encoded) (module : LsmSmbiosMemoryModule) : Prop where
  locator : Shows L 64 (e.selected 0x10) module.locator.text
  bankLocator : Shows L 64 (e.selected 0x11) module.bankLocator.text
  manufacturer : Shows L 64 (e.selected 0x17) module.manufacturer.text
  serialNumber : Shows L 64 (e.selected 0x18) module.serialNumber.text
  partNumber : Shows L 96 (e.selected 0x1a) module.partNumber.text
  speedMhz : module.speedMhz = e.toStructure.speed L

def Encoded.isMemoryDevice (e : Encoded) : Bool := e.type = smbiosTypeMemoryDevice

def EncodedTable.memoryDevices (t : EncodedTable) : List Encoded := t.structures.filter Encoded.isMemoryDevice

def EncodedTable.populated (L : SmbiosLibrary) (t : EncodedTable) : List Encoded :=
  t.memoryDevices.filter fun e => e.toStructure.populated L

/-- What the call returns of a table written by the rules. -/
structure Decodes (L : SmbiosLibrary) (t : EncodedTable) (answer : Answer) : Prop where
  succeeds : t.memoryDevices ≠ [] → (t.populated L).length ≤ lsmSmbiosMaxModules →
    answer.error = none ∧ answer.info.slotsTotal = t.memoryDevices.length ∧
      answer.info.slotsUsed = (t.populated L).length ∧ List.Forall₂ (ModuleOf L) (t.populated L) answer.info.modules
  empty : t.memoryDevices = [] → answer.error = some (ascii "No SMBIOS memory-device records found")
  exceeds : lsmSmbiosMaxModules < (t.populated L).length →
    answer = ⟨.cleared, some (ascii "SMBIOS memory module count exceeds supported capacity")⟩

section
variable (L : SmbiosLibrary)

theorem memoryDevices_encoded (t : EncodedTable) :
    memoryDevices (structures t.bytes) = t.memoryDevices.map Encoded.toStructure := by
  have hlast : t.last.toStructure.type ≠ smbiosTypeMemoryDevice := by
    show t.last.type ≠ smbiosTypeMemoryDevice
    rw [t.ends]
    decide
  rw [t.structures_eq, memoryDevices, List.filter_append, List.filter_map,
    List.filter_cons_of_neg (by simpa using hlast), List.filter_nil, List.append_nil]
  rfl

theorem populatedDevices_encoded (t : EncodedTable) :
    populatedDevices L (structures t.bytes) = (t.populated L).map Encoded.toStructure := by
  rw [populatedDevices, memoryDevices_encoded, List.filter_map]
  rfl

theorem moduleOf_module (e : Encoded) : ModuleOf L e (e.toStructure.module L) :=
  ⟨shows_textField L (by decide) e 0x10, shows_textField L (by decide) e 0x11, shows_textField L (by decide) e 0x17,
    shows_textField L (by decide) e 0x18, shows_textField L (by decide) e 0x1a, rfl⟩

variable {L}

theorem consistent_conclude {found : List Structure} {walk : Walk} (h : Folded L found walk)
    (hsuccess : (conclude walk).error = none) : Consistent (conclude walk).info := by
  unfold conclude at hsuccess ⊢
  split
  · rename_i hincomplete
    rw [if_pos hincomplete] at hsuccess
    cases hsuccess
  · rename_i hcomplete
    rw [if_neg hcomplete] at hsuccess
    split
    · rename_i hnone
      rw [if_pos hnone] at hsuccess
      cases hsuccess
    · have hfits : (populatedDevices L found).length ≤ lsmSmbiosMaxModules := by
        rw [h.complete] at hcomplete
        exact of_decide_eq_true (Bool.eq_true_of_not_eq_false hcomplete)
      have hmodules : walk.info.modules = (populatedDevices L found).map (Structure.module L) := by
        rw [h.modules, List.take_of_length_le (by rw [List.length_map]; exact hfits)]
      refine ⟨?_, ?_, ?_⟩
      · rw [h.slotsUsed, h.slotsTotal]
        exact List.length_filter_le ..
      · show walk.info.modules.length = _
        rw [hmodules, List.length_map, h.slotsUsed]
      · rw [hmodules, List.map_map]
        exact h.least

theorem decodes_conclude {t : EncodedTable} {walk : Walk} (h : Folded L (structures t.bytes) walk) :
    Decodes L t (conclude walk) := by
  have htotal := h.slotsTotal
  have hused := h.slotsUsed
  have hmodules := h.modules
  have hcomplete := h.complete
  rw [memoryDevices_encoded, List.length_map] at htotal
  rw [populatedDevices_encoded, List.length_map] at hused hcomplete
  rw [populatedDevices_encoded, List.map_map] at hmodules
  refine ⟨?_, ?_, ?_⟩
  · intro hdevices hfits
    have hsome : walk.info.slotsTotal ≠ 0 := by
      rw [htotal]
      exact fun h => hdevices (List.length_eq_zero_iff.mp h)
    rw [conclude, if_neg (by rw [hcomplete, decide_eq_true hfits]; decide), if_neg hsome]
    refine ⟨rfl, htotal, hused, ?_⟩
    rw [hmodules, List.take_of_length_le (by rw [List.length_map]; exact hfits), List.forall₂_map_right_iff]
    exact List.forall₂_same.mpr fun e _ => moduleOf_module L e
  · intro hdevices
    have hnone : (t.populated L).length ≤ lsmSmbiosMaxModules := by
      rw [EncodedTable.populated, hdevices]
      exact Nat.zero_le _
    rw [hdevices, List.length_nil] at htotal
    rw [conclude, if_neg (by rw [hcomplete, decide_eq_true hnone]; decide), if_pos htotal]
  · intro hexceeds
    rw [conclude, if_pos (by rw [hcomplete]; exact decide_eq_false (by omega))]

variable (L)

/-- The call on a table of a size it accepts. -/
theorem lsmSmbiosMemoryRead_eq {table : List UInt8} (hnonempty : table.length ≠ 0) (hsize : table.length ≤ lsmDmiMaxBytes)
    {fuel : Nat} (hfuel : table.length < fuel) : lsmSmbiosMemoryRead L fuel (.opened table none) =
      some (conclude ((structures table).foldl (addStructure L) ⟨.cleared, true⟩)) := by
  rw [lsmSmbiosMemoryRead, readTable, if_neg (by omega)]
  dsimp only
  rw [walk_eq L hfuel]
  rfl

/-- **The table is decoded**: of every table the call returns, and reads nothing outside it, whatever the fuel
above the size of the table, and a successful answer is consistent; of a table written by the rules it
returns the memory devices. -/
theorem lsmSmbiosMemoryRead_decodes :
    (∀ table : List UInt8, ∃ answer, (answer.error = none → Consistent answer.info) ∧
      ∀ turns, lsmSmbiosMemoryRead L (table.length + 1 + turns) (.opened table none) = some answer) ∧
    ∀ t : EncodedTable, ∃ answer, Decodes L t answer ∧
      ∀ turns, lsmSmbiosMemoryRead L (t.bytes.length + 1 + turns) (.opened t.bytes none) = some answer := by
  refine ⟨fun table => ?_, fun t => ?_⟩
  · by_cases hsize : table.length = 0 ∨ lsmDmiMaxBytes < table.length
    · refine ⟨⟨.cleared, some (ascii "DMI table has an invalid size")⟩, fun h => (nomatch h), fun turns => ?_⟩
      rw [lsmSmbiosMemoryRead, readTable, if_pos hsize]
    · obtain ⟨hnonempty, hsize⟩ := not_or.mp hsize
      exact ⟨_, consistent_conclude (folded_foldl L (structures table)), fun turns =>
        lsmSmbiosMemoryRead_eq L hnonempty (Nat.le_of_not_lt hsize) (by omega)⟩
  · have hnonempty : t.bytes.length ≠ 0 := by
      have hlast : 2 ≤ t.last.bytes.length := by
        rw [Encoded.bytes, List.length_append, Encoded.formatted, List.length_cons, List.length_cons]
        omega
      rw [EncodedTable.bytes, List.length_append, List.length_append]
      omega
    exact ⟨_, decodes_conclude (folded_foldl L (structures t.bytes)), fun turns =>
      lsmSmbiosMemoryRead_eq L hnonempty t.size (by omega)⟩

/-- A module whose locator fills its buffer. -/
def longLocator : Encoded where
  type := smbiosTypeMemoryDevice
  body := [0, 0, 0, 0, 0, 0, 0, 0, 0, 0, 0, 32, 9, 0, 1]
  strings := [List.replicate 64 65]
  long := by decide
  short := by decide
  writable := by decide

def endOfTable : Encoded where
  type := smbiosTypeEnd
  body := [0, 0]
  strings := []
  long := by decide
  short := by decide
  writable := by decide

def longLocatorTable : EncodedTable where
  structures := [longLocator]
  last := endOfTable
  rest := []
  types := by decide
  ends := rfl
  size := by decide

/-- **A string as long as the buffer is not shown exactly.** -/
theorem locator_cut : longLocatorTable.populated .documented = [longLocator] ∧
    longLocator.selected 0x10 = some (List.replicate 64 65) ∧
    (lsmSmbiosMemoryRead .documented 200 (.opened longLocatorTable.bytes none)).map
      (fun answer => (answer.error, answer.info.modules.map fun module => module.locator.text)) =
        some (none, [List.replicate 63 65]) := by
  decide

end

end SystemMonitor.Smbios
