import SystemMonitor.Smbios.Strings

/-! The walk over a DMI table as a fold.

`structures` parses a table: each structure is its formatted area and the bytes of
its strings, up to the first pair of NULs. `walk_eq` says that the loop of
`lsm_smbios_memory_read` neither reads outside the table nor runs on, whatever the
bytes are, and that it folds `addStructure` over what `structures` finds. -/
namespace SystemMonitor.Smbios
open Lib Lib.Loop

/-! ### The pair of NULs -/

/-- The offset of the first pair of NULs; of the last byte if there is none. -/
def pairAt : List UInt8 → Nat
  | a :: b :: rest => if a = 0 ∧ b = 0 then 0 else pairAt (b :: rest) + 1
  | _ => 0

section
variable {table : List UInt8} {fuel : Nat}

theorem doubleNul_eq {stringsStart : Nat} (hfuel : table.length - stringsStart < fuel) :
    doubleNul table fuel stringsStart = some (stringsStart + pairAt (table.drop stringsStart)) := by
  refine Computes.iterate_eq (⟨fun next _ => ?_⟩ : Computes _ (fun _ => True) (fun next => table.length - next)
    fun next => next + pairAt (table.drop next)) trivial hfuel
  by_cases hnext : next + 1 < table.length
  · have hdrop : table.drop next = table[next] :: table[next + 1] :: table.drop (next + 1 + 1) := by
      rw [List.drop_eq_getElem_cons (by omega), List.drop_eq_getElem_cons hnext]
    simp only [if_pos hnext, List.getElem?_eq_getElem hnext,
      List.getElem?_eq_getElem (Nat.lt_of_succ_lt hnext), Option.bind_eq_bind, Option.bind_some]
    rw [hdrop, pairAt]
    by_cases hpair : table[next] = 0 ∧ table[next + 1] = 0
    · right
      rw [if_pos hpair, if_neg (by simp only [hpair, ne_eq, not_true_eq_false, or_self, not_false_eq_true])]
      rfl
    · left
      refine ⟨next + 1, if_pos (not_and_or.mp hpair), trivial, by omega, ?_⟩
      rw [if_neg hpair, List.drop_eq_getElem_cons hnext]
      omega
  · right
    have hshort : pairAt (table.drop next) = 0 := by
      have hlength := @List.length_drop _ next table
      match hdrop : table.drop next with
      | [] => rfl
      | [_] => rfl
      | _ :: _ :: _ =>
        rw [hdrop, List.length_cons, List.length_cons] at hlength
        omega
    rw [if_neg hnext, hshort]
    rfl

end

/-! ### One structure -/

structure Structure where
  formatted : List UInt8
  /-- Up to the pair of NULs. -/
  strings : List UInt8
  deriving DecidableEq

namespace Structure

/-- A field that the formatted area does not have is zero. -/
def field (s : Structure) (k : Nat) : UInt8 := s.formatted.getD k 0

def type (s : Structure) : UInt8 := s.field 0

def length (s : Structure) : Nat := s.formatted.length

variable (L : SmbiosLibrary) (s : Structure)

def word (k : Nat) : UInt16 := L.loadLe16 (s.field k) (s.field (k + 1))

def dword (k : Nat) : UInt32 := L.loadLe32 (s.field k) (s.field (k + 1)) (s.field (k + 2)) (s.field (k + 3))

/-- A device with a module in it: its size is known and is not zero. -/
def populated : Bool :=
  0x0d < s.length && s.word L 0x0c != 0 && s.word L 0x0c != 0xffff &&
    (s.word L 0x0c != 0x7fff || (0x20 ≤ s.length && s.dword L 0x1c != 0))

def size : Nat :=
  if s.populated L then
    if s.word L 0x0c = 0x7fff then (s.dword L 0x1c).toNat * 1024 * 1024
    else if s.word L 0x0c &&& 0x8000 ≠ 0 then (s.word L 0x0c &&& 0x7fff).toNat * 1024
    else (s.word L 0x0c).toNat * 1024 * 1024
  else 0

/-- A speed whose field is full is in the extension. -/
def extended (k extension : Nat) : Nat :=
  let speed := if k + 2 ≤ s.length then (s.word L k).toNat else 0
  if speed = 0xffff ∧ extension + 4 ≤ s.length then (s.dword L extension).toNat else speed

/-- Zero when it is unknown. -/
def known (speed : Nat) : Nat := if speed = 0xffff then 0 else speed

/-- The configured speed, else the rated one. -/
def speed : Nat :=
  if known (s.extended L 0x20 0x58) ≠ 0 then known (s.extended L 0x20 0x58) else known (s.extended L 0x15 0x54)

def module : LsmSmbiosMemoryModule where
  locator := textField L s.strings (s.field 0x10)
  bankLocator := textField L s.strings (s.field 0x11)
  manufacturer := textField L s.strings (s.field 0x17)
  partNumber := textField L s.strings (s.field 0x1a)
  serialNumber := textField L s.strings (s.field 0x18)
  memoryType := if 0x12 < s.length then Chars.ofText (memoryTypeName (s.field 0x12)) else notAvailable
  formFactor := if 0x0e < s.length then Chars.ofText (formFactorName (s.field 0x0e)) else notAvailable
  sizeBytes := s.size L
  speedMhz := s.speed L

/-! ### Its record in the table -/

/-- Inside the formatted area a pointer reads the structure's bytes. -/
def ReadBy (s : Structure) (record : Record) : Prop := ∀ k < s.length, record k = some (s.field k)

variable {L s} {record : Record}

theorem ReadBy.fieldByte (h : s.ReadBy record) (k : Nat) : fieldByte record s.length k = some (s.field k) := by
  unfold Smbios.fieldByte
  split
  · rename_i hk
    exact h k hk
  · rename_i hk
    rw [field, List.getD_eq_getElem?_getD, List.getElem?_eq_none (Nat.le_of_not_lt hk)]
    rfl

theorem ReadBy.loadLe16 (h : s.ReadBy record) {k : Nat} (hk : k + 2 ≤ s.length) :
    infiltratrLoadLe16 L record k = some (s.word L k) := by
  rw [infiltratrLoadLe16, h k (by omega), h (k + 1) hk]
  rfl

theorem ReadBy.loadLe32 (h : s.ReadBy record) {k : Nat} (hk : k + 4 ≤ s.length) :
    infiltratrLoadLe32 L record k = some (s.dword L k) := by
  rw [infiltratrLoadLe32, h k (by omega), h (k + 1) (by omega), h (k + 2) (by omega), h (k + 3) hk]
  rfl

theorem ReadBy.populatedMemoryDevice (h : s.ReadBy record) :
    populatedMemoryDevice L record s.length = some (s.populated L) := by
  unfold Smbios.populatedMemoryDevice populated
  by_cases hlength : s.length ≤ 0x0d
  · rw [if_pos hlength, decide_eq_false (Nat.not_lt.mpr hlength)]
    rfl
  · rw [if_neg hlength, h.loadLe16 (by omega), decide_eq_true (Nat.lt_of_not_le hlength)]
    simp only [Option.bind_eq_bind, Option.bind_some, Bool.true_and]
    by_cases hempty : s.word L 0x0c = 0 ∨ s.word L 0x0c = 0xffff
    · rw [if_pos hempty]
      rcases hempty with hzero | hfull
      · simp only [hzero, bne_self_eq_false, Bool.false_and]
      · simp only [hfull, bne_self_eq_false, Bool.and_false, Bool.false_and]
    · obtain ⟨hzero, hfull⟩ := not_or.mp hempty
      rw [if_neg hempty, bne_iff_ne.mpr hzero, bne_iff_ne.mpr hfull, Bool.true_and, Bool.true_and]
      by_cases hextended : s.word L 0x0c = 0x7fff
      · rw [if_neg (not_not.mpr hextended), hextended, bne_self_eq_false, Bool.false_or]
        split
        · rename_i hlong
          rw [h.loadLe32 (by omega), Option.bind_some, decide_eq_true hlong, Bool.true_and]
        · rename_i hlong
          rw [decide_eq_false hlong, Bool.false_and]
      · rw [if_pos hextended, bne_iff_ne.mpr hextended, Bool.true_or]

theorem ReadBy.memorySizeBytes (h : s.ReadBy record) (hpopulated : s.populated L = true) :
    memorySizeBytes L record s.length = some (s.size L) := by
  rw [size, if_pos hpopulated]
  simp only [populated, Bool.and_eq_true, Bool.or_eq_true, decide_eq_true_eq, bne_iff_ne] at hpopulated
  obtain ⟨⟨⟨hlength, hzero⟩, hfull⟩, hextended⟩ := hpopulated
  rw [Smbios.memorySizeBytes, if_neg (by omega), h.loadLe16 (by omega)]
  simp only [Option.bind_eq_bind, Option.bind_some]
  rw [if_neg (not_or.mpr ⟨hzero, hfull⟩)]
  split
  · rename_i hword
    obtain ⟨hlong, -⟩ := hextended.resolve_left (not_not.mpr hword)
    rw [if_neg (by omega), h.loadLe32 (by omega), Option.bind_some]
  · split <;> rfl

theorem ReadBy.speedField (h : s.ReadBy record) (k extension : Nat) :
    speedField L record s.length k (k + 2) extension (extension + 4) = some (s.extended L k extension) := by
  have hspeed : (if k + 2 ≤ s.length then (infiltratrLoadLe16 L record k).map UInt16.toNat else some 0) =
      some (if k + 2 ≤ s.length then (s.word L k).toNat else 0) := by
    split
    · rename_i hk
      rw [h.loadLe16 hk]
      rfl
    · rfl
  unfold Smbios.speedField extended
  rw [hspeed]
  generalize (if k + 2 ≤ s.length then (s.word L k).toNat else 0) = speed
  simp only [Option.bind_eq_bind, Option.bind_some]
  split
  · rename_i hfull
    rw [h.loadLe32 hfull.2]
    rfl
  · rfl

theorem ReadBy.memorySpeed (h : s.ReadBy record) : memorySpeed L record s.length = some (s.speed L) := by
  rw [Smbios.memorySpeed, h.speedField 0x15 0x54, h.speedField 0x20 0x58]
  rfl

end Structure

/-! ### The steps of the fold -/

section
variable (L : SmbiosLibrary)

def addDevice (walk : Walk) (s : Structure) : Walk :=
  let info := { walk.info with slotsTotal := walk.info.slotsTotal + 1 }
  if s.populated L then
    let info := { info with
      slotsUsed := info.slotsUsed + 1
      speedMhz := noteSpeed (s.speed L) info.speedMhz
      formFactor := noteFormFactor (s.field 0x0e) s.length info.formFactor }
    if room : info.modules.length < lsmSmbiosMaxModules then { walk with info := addModule (s.module L) info room }
    else { info, modulesComplete := false }
  else { walk with info }

def addStructure (walk : Walk) (s : Structure) : Walk :=
  if s.type = smbiosTypeMemoryDevice then addDevice L walk s else walk

variable {L} {table : List UInt8} {fuel : Nat} {s : Structure} {record : Record} {stringsStart next : Nat}

theorem memoryModule_eq (h : s.ReadBy record) (hstrings : window table stringsStart next = s.strings)
    (hin : next ≤ table.length) (hfuel : table.length < fuel) (hpopulated : s.populated L = true) :
    memoryModule L table fuel record s.length stringsStart next (s.speed L) = some (s.module L) := by
  rw [memoryModule, h.memorySizeBytes hpopulated]
  simp only [h.fieldByte, copySmbiosString_eq L hin hfuel, hstrings, Option.bind_eq_bind, Option.bind_some]
  rfl

theorem memoryDevice_eq (h : s.ReadBy record) (hstrings : window table stringsStart next = s.strings)
    (hin : next ≤ table.length) (hfuel : table.length < fuel) (walk : Walk) :
    memoryDevice L table fuel record s.length stringsStart next walk = some (addDevice L walk s) := by
  rw [memoryDevice, h.populatedMemoryDevice, addDevice]
  simp only [Option.bind_eq_bind, Option.bind_some, h.memorySpeed, h.fieldByte]
  split
  · rename_i hpopulated
    split
    · rw [memoryModule_eq h hstrings hin hfuel hpopulated]
      rfl
    · rfl
  · rfl

end

/-! ### The structures of a table -/

/-- The first structure, if there is a whole one, and what follows it. -/
def firstStructure (table : List UInt8) : Option (Structure × List UInt8) :=
  let length := (table.getD 1 0).toNat
  let strings := table.drop length
  if 4 ≤ length ∧ length ≤ table.length ∧ pairAt strings + 1 < strings.length then
    some (⟨table.take length, strings.take (pairAt strings)⟩, strings.drop (pairAt strings + 2))
  else none

theorem firstStructure_rest {table rest : List UInt8} {s : Structure} (h : firstStructure table = some (s, rest)) :
    rest <:+ table ∧ rest.length < table.length := by
  rw [firstStructure] at h
  generalize (table.getD 1 0).toNat = length at h
  generalize hstrings : table.drop length = strings at h
  split at h
  · rename_i hwhole
    cases h
    have hlength := congrArg List.length hstrings
    rw [List.length_drop] at hlength
    refine ⟨(List.drop_suffix _ strings).trans (hstrings ▸ List.drop_suffix length table), ?_⟩
    rw [List.length_drop]
    omega
  · cases h

/-- Up to the end-of-table structure, or to the first that is not whole. -/
def structures (table : List UInt8) : List Structure :=
  match _ : firstStructure table with
  | none => []
  | some (s, rest) => if s.type = smbiosTypeEnd then [s] else s :: structures rest
termination_by table.length
decreasing_by
  rename_i h _
  exact (firstStructure_rest h).2

section
variable {table rest : List UInt8} {s : Structure}

theorem structures_none (h : firstStructure table = none) : structures table = [] := by
  rw [structures]
  split
  · rfl
  · rename_i hsome
    rw [h] at hsome
    cases hsome

theorem structures_some (h : firstStructure table = some (s, rest)) :
    structures table = if s.type = smbiosTypeEnd then [s] else s :: structures rest := by
  rw [structures]
  split
  · rename_i hnone
    rw [h] at hnone
    cases hnone
  · rename_i hsome
    rw [h] at hsome
    cases hsome
    rfl

variable (L : SmbiosLibrary) {fuel offset : Nat}

theorem readBy_table (length : Nat) (hin : offset + length ≤ table.length) (strings : List UInt8) :
    Structure.ReadBy ⟨(table.drop offset).take length, strings⟩ fun k => table[offset + k]? := by
  intro k hk
  have hlength : k < length := by
    have hle : k < ((table.drop offset).take length).length := hk
    rw [List.length_take] at hle
    omega
  have hread : offset + k < table.length := by omega
  rw [Structure.field, List.getD_eq_getElem?_getD, List.getElem?_take_of_lt hlength, List.getElem?_drop,
    List.getElem?_eq_getElem hread, Option.getD_some]
  exact List.getElem?_eq_getElem hread

/-- **One turn of the loop**: without a whole structure it leaves; else the structure is
added, and the loop goes on behind it or leaves at the end of the table. -/
theorem structureTurn_eq (hfuel : table.length < fuel) (walk : Walk) :
    structureTurn L table fuel (offset, walk) =
      match firstStructure (table.drop offset) with
      | none => some (.inr walk)
      | some (s, rest) =>
        some (if s.type = smbiosTypeEnd then .inr (addStructure L walk s)
          else .inl (table.length - rest.length, addStructure L walk s)) := by
  unfold structureTurn
  by_cases hshort : table.length < offset + 4
  · have hnone : firstStructure (table.drop offset) = none := by
      rw [firstStructure, List.length_drop]
      exact if_neg (by omega)
    simp only [if_pos hshort, hnone]
  · have htype : offset < table.length := by omega
    have hsecond : offset + 1 < table.length := by omega
    simp only [if_neg hshort, List.getElem?_eq_getElem htype, List.getElem?_eq_getElem hsecond, Option.map_some,
      Option.bind_eq_bind, Option.bind_some]
    have hn : ((table.drop offset).getD 1 0).toNat = table[offset + 1].toNat := by
      rw [List.getD_eq_getElem?_getD, List.getElem?_drop, List.getElem?_eq_getElem hsecond, Option.getD_some]
    generalize table[offset + 1].toNat = n at hn
    rw [firstStructure]
    simp only [hn, List.drop_drop, List.length_drop]
    by_cases hwhole : n < 4 ∨ table.length < offset + n
    · rw [if_pos hwhole, if_neg (by omega)]
    · rw [if_neg hwhole, doubleNul_eq (by omega), Option.bind_some]
      generalize hpair : pairAt (table.drop (offset + n)) = pair
      by_cases hend : table.length ≤ offset + n + pair + 1
      · rw [if_pos hend, if_neg (by omega)]
      · have hwhole' : 4 ≤ n ∧ n ≤ table.length - offset ∧ pair + 1 < table.length - (offset + n) := by omega
        rw [if_neg hend, if_pos hwhole']
        have hin : offset + n + pair ≤ table.length := by omega
        have hreads := readBy_table n (by omega : offset + n ≤ table.length) ((table.drop (offset + n)).take pair)
        generalize hs : Structure.mk ((table.drop offset).take n) ((table.drop (offset + n)).take pair) = s at hreads
        have hlength : s.length = n := by
          rw [← hs, Structure.length, List.length_take, List.length_drop]
          omega
        have hstrings : window table (offset + n) (offset + n + pair) = s.strings := by
          rw [← hs, window, Nat.add_sub_cancel_left]
        have hfirst : s.type = table[offset] := by
          have hread : table[offset + 0]? = some (s.field 0) := hreads 0 (by omega)
          rw [Nat.add_zero, List.getElem?_eq_getElem htype] at hread
          exact (Option.some.inj hread).symm
        have hnext : table.length - (table.drop (offset + n + (pair + 2))).length = offset + n + pair + 2 := by
          rw [List.length_drop]
          omega
        have hdevice := memoryDevice_eq (L := L) hreads hstrings hin hfuel walk
        rw [hlength] at hdevice
        simp only [hfirst, addStructure, hnext]
        by_cases hmemory : table[offset] = smbiosTypeMemoryDevice
        · rw [if_pos hmemory, if_pos hmemory, hdevice, Option.bind_some]
          split <;> rfl
        · rw [if_neg hmemory, if_neg hmemory, Option.bind_some]
          split <;> rfl

/-- **The walk of any table ends, reads nothing outside it, and folds over its structures.** -/
theorem walk_eq (hfuel : table.length < fuel) (walk : Walk) :
    iterate (structureTurn L table fuel) fuel (0, walk) = some ((structures table).foldl (addStructure L) walk) := by
  have hcomputes : Computes (structureTurn L table fuel) (fun s => s.1 ≤ table.length)
      (fun s => table.length - s.1) fun s => (structures (table.drop s.1)).foldl (addStructure L) s.2 := by
    refine ⟨fun s hs => ?_⟩
    obtain ⟨offset, walk⟩ := s
    dsimp only at hs ⊢
    rw [structureTurn_eq L hfuel]
    cases hfirst : firstStructure (table.drop offset) with
    | none =>
      right
      rw [structures_none hfirst]
      rfl
    | some found =>
      obtain ⟨s, rest⟩ := found
      obtain ⟨hsuffix, hshorter⟩ := firstStructure_rest hfirst
      have hrest := List.suffix_iff_eq_drop.mp (hsuffix.trans (List.drop_suffix offset table))
      rw [List.length_drop] at hshorter
      rw [structures_some hfirst]
      by_cases hend : s.type = smbiosTypeEnd
      · right
        simp only [if_pos hend]
        rfl
      · left
        refine ⟨(table.length - rest.length, addStructure L walk s), by simp only [if_neg hend], Nat.sub_le .., by
          dsimp only; omega, ?_⟩
        rw [if_neg hend, List.foldl_cons, ← hrest]
  exact hcomputes.iterate_eq (Nat.zero_le _) (by show table.length - 0 < fuel; omega)

end

end SystemMonitor.Smbios
