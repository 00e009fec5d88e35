import SystemMonitor.Common
import SystemMonitor.Lib.Framing
import SystemMonitor.Lib.Loop

/-! The memory devices of a DMI table, as `lsm_smbios_memory_read` finds them.

The table is a sequence of structures: a formatted area whose second byte is its
length, then NUL-terminated strings that end at a pair of NULs. Every offset comes
from the firmware's bytes, so every read of the model is partial, and `none` is a
read outside the table or a loop that has not ended. -/
namespace SystemMonitor.Smbios
open Lib Lib.Loop

/-- The decoders of Common. -/
structure SmbiosLibrary where
  loadLe16 : UInt8 → UInt8 → UInt16
  loadLe32 : UInt8 → UInt8 → UInt8 → UInt8 → UInt32
  utf8Validate : List UInt8 → Bool

/-- Well-formed UTF-8: shortest forms only, no surrogates, nothing above U+10FFFF. -/
def utf8 : List UInt8 → Bool
  | [] => true
  | a :: rest =>
    let more b := 0x80 ≤ b && b ≤ 0xBF
    if a < 0x80 then utf8 rest
    else if 0xC2 ≤ a && a ≤ 0xDF then
      match rest with
      | b :: rest => more b && utf8 rest
      | _ => false
    else if 0xE0 ≤ a && a ≤ 0xEF then
      match rest with
      | b :: c :: rest =>
        more b && more c && (a != 0xE0 || 0xA0 ≤ b) && (a != 0xED || b ≤ 0x9F) && utf8 rest
      | _ => false
    else if 0xF0 ≤ a && a ≤ 0xF4 then
      match rest with
      | b :: c :: d :: rest =>
        more b && more c && more d && (a != 0xF0 || 0x90 ≤ b) && (a != 0xF4 || b ≤ 0x8F) && utf8 rest
      | _ => false
    else false

/-- The documented behaviour as functions. -/
def SmbiosLibrary.documented : SmbiosLibrary where
  loadLe16 a b := a.toUInt16 + 256 * b.toUInt16
  loadLe32 a b c d := a.toUInt32 + 256 * (b.toUInt32 + 256 * (c.toUInt32 + 256 * d.toUInt32))
  utf8Validate := utf8

/-! ### What is decoded -/

def notAvailable {n : Nat} : Chars n := Chars.ofText (ascii "N/A")

structure LsmSmbiosMemoryModule where
  locator : Chars 64
  bankLocator : Chars 64
  manufacturer : Chars 64
  partNumber : Chars 96
  serialNumber : Chars 64
  memoryType : Chars 32
  formFactor : Chars 32
  sizeBytes : Nat
  speedMhz : Nat
  deriving DecidableEq

def lsmSmbiosMaxModules : Nat := 32

structure LsmSmbiosMemoryInfo where
  speedMhz : Nat
  slotsUsed : Nat
  slotsTotal : Nat
  formFactor : Chars 64
  /-- The entries in use. -/
  modules : List LsmSmbiosMemoryModule
  capacity : modules.length ≤ lsmSmbiosMaxModules
  deriving DecidableEq

def LsmSmbiosMemoryInfo.moduleCount (info : LsmSmbiosMemoryInfo) : Nat := info.modules.length

def LsmSmbiosMemoryInfo.cleared : LsmSmbiosMemoryInfo := ⟨0, 0, 0, notAvailable, [], Nat.zero_le _⟩

/-! ### The fields of a record -/

/-- The bytes behind a pointer into the table. -/
abbrev Record := Nat → Option UInt8

/-- A field that a short record does not have is zero. -/
def fieldByte (record : Record) (length k : Nat) : Option UInt8 := if k < length then record k else some 0

def formFactorNames : List Text := [
  [], ascii "Other", ascii "Unknown", ascii "SIMM", ascii "SIP", ascii "Chip", ascii "DIP", ascii "ZIP",
  ascii "Proprietary Card", ascii "DIMM", ascii "TSOP", ascii "Row of Chips", ascii "RIMM",
  ascii "SODIMM", ascii "SRIMM", ascii "FB-DIMM", ascii "Die"]

def formFactorName (value : UInt8) : Text := (formFactorNames[value.toNat]?).getD (ascii "Unknown")

def memoryTypeNames : List (UInt8 × Text) := [
  (0x12, ascii "DDR"), (0x13, ascii "DDR2"), (0x18, ascii "DDR3"), (0x1a, ascii "DDR4"), (0x1b, ascii "LPDDR"),
  (0x1c, ascii "LPDDR2"), (0x1d, ascii "LPDDR3"), (0x1e, ascii "LPDDR4"), (0x20, ascii "HBM"), (0x21, ascii "HBM2"),
  (0x22, ascii "DDR5"), (0x23, ascii "LPDDR5"), (0x24, ascii "HBM3")]

def memoryTypeName (value : UInt8) : Text := (memoryTypeNames.lookup value).getD (ascii "N/A")

section
variable (L : SmbiosLibrary)

def infiltratrLoadLe16 (record : Record) (k : Nat) : Option UInt16 := do
  let a ← record k
  let b ← record (k + 1)
  some (L.loadLe16 a b)

def infiltratrLoadLe32 (record : Record) (k : Nat) : Option UInt32 := do
  let a ← record k
  let b ← record (k + 1)
  let c ← record (k + 2)
  let d ← record (k + 3)
  some (L.loadLe32 a b c d)

def memorySizeBytes (record : Record) (length : Nat) : Option Nat :=
  if length ≤ 0x0d then some 0
  else do
    let encoded ← infiltratrLoadLe16 L record 0x0c
    if encoded = 0 ∨ encoded = 0xffff then some 0
    else if encoded = 0x7fff then
      if length < 0x20 then some 0
      else do
        let extended ← infiltratrLoadLe32 L record 0x1c
        some (extended.toNat * 1024 * 1024)
    else if encoded &&& 0x8000 ≠ 0 then some ((encoded &&& 0x7fff).toNat * 1024)
    else some (encoded.toNat * 1024 * 1024)

def populatedMemoryDevice (record : Record) (length : Nat) : Option Bool :=
  if length ≤ 0x0d then some false
  else do
    let size ← infiltratrLoadLe16 L record 0x0c
    if size = 0 ∨ size = 0xffff then some false
    else if size ≠ 0x7fff then some true
    else if 0x20 ≤ length then do
      let extended ← infiltratrLoadLe32 L record 0x1c
      some (extended != 0)
    else some false

/-- A 16-bit speed that a record of that length has, and its extension when the value
does not fit. -/
def speedField (record : Record) (length field fieldEnd extension extensionEnd : Nat) : Option Nat := do
  let speed ← (if fieldEnd ≤ length then (infiltratrLoadLe16 L record field).map UInt16.toNat else some 0)
  if speed = 0xffff ∧ extensionEnd ≤ length then (infiltratrLoadLe32 L record extension).map UInt32.toNat
  else some speed

def memorySpeed (record : Record) (length : Nat) : Option Nat := do
  let rated ← speedField L record length 0x15 0x17 0x54 0x58
  let configured ← speedField L record length 0x20 0x22 0x58 0x5c
  let configured := if configured = 0xffff then 0 else configured
  let rated := if rated = 0xffff then 0 else rated
  some (if configured ≠ 0 then configured else rated)

/-! ### The strings of a structure -/

/-- `while (cursor < strings_end && table[cursor] != 0U) cursor++`. -/
def textEnd (table : List UInt8) (fuel cursor stringsEnd : Nat) : Option Nat :=
  iterate (fun cursor =>
    if cursor < stringsEnd then do
      let b ← table[cursor]?
      if b ≠ 0 then some (.inl (cursor + 1)) else some (.inr cursor)
    else some (.inr cursor)) fuel cursor

/-- The length without the blanks at the end. -/
def trimLength (table : List UInt8) (start : Nat) : Nat → Option Nat
  | 0 => some 0
  | length + 1 => do
    let b ← table[start + length]?
    if b = 32 ∨ b = 9 then trimLength table start length else some (length + 1)

/-- The greatest length up to this one whose text is valid. -/
def cutLength (table : List UInt8) (start : Nat) : Nat → Option Nat
  | 0 => some 0
  | length + 1 => do
    let text ← bytesAt table start (length + 1)
    if L.utf8Validate text then some (length + 1) else cutLength table start length

/-- The copy, once the text has been found. -/
def copyText {n : Nat} (table : List UInt8) (start length : Nat) : Option (Chars n) := do
  let length ← trimLength table start length
  let text ← bytesAt table start length
  if ¬L.utf8Validate text then some notAvailable
  else do
    let kept ← (if n ≤ length then cutLength L table start (n - 1) else some length)
    let text ← bytesAt table start kept
    let destination : Chars n := Chars.ofText text
    some (if destination.text = [] then notAvailable else destination)

def copySmbiosString {n : Nat} (table : List UInt8) (fuel stringsStart stringsEnd : Nat) (stringIndex : UInt8) :
    Option (Chars n) :=
  if stringIndex = 0 ∨ stringsEnd ≤ stringsStart ∨ table.length < stringsEnd then some notAvailable
  else
    iterate (fun (cursor, current) =>
      if cursor < stringsEnd then do
        let start := cursor
        let cursor ← textEnd table fuel start stringsEnd
        if current = stringIndex.toNat then (copyText L table start (cursor - start)).map Sum.inr
        else if stringsEnd ≤ cursor then some (.inr notAvailable)
        else some (.inl (cursor + 1, current + 1))
      else some (.inr notAvailable)) fuel (stringsStart, 1)

/-- The double NUL that ends the strings. -/
def doubleNul (table : List UInt8) (fuel stringsStart : Nat) : Option Nat :=
  iterate (fun next =>
    if next + 1 < table.length then do
      let a ← table[next]?
      let b ← table[next + 1]?
      if a ≠ 0 ∨ b ≠ 0 then some (.inl (next + 1)) else some (.inr next)
    else some (.inr next)) fuel stringsStart

/-! ### The walk -/

structure Walk where
  info : LsmSmbiosMemoryInfo
  modulesComplete : Bool
  deriving DecidableEq

def memoryModule (table : List UInt8) (fuel : Nat) (record : Record) (length stringsStart next speed : Nat) :
    Option LsmSmbiosMemoryModule := do
  let sizeBytes ← memorySizeBytes L record length
  let form ← fieldByte record length 0x0e
  let formFactor := if 0x0e < length then Chars.ofText (formFactorName form) else notAvailable
  let type ← fieldByte record length 0x12
  let memoryType := if 0x12 < length then Chars.ofText (memoryTypeName type) else notAvailable
  let locator ← copySmbiosString L table fuel stringsStart next (← fieldByte record length 0x10)
  let bankLocator ← copySmbiosString L table fuel stringsStart next (← fieldByte record length 0x11)
  let manufacturer ← copySmbiosString L table fuel stringsStart next (← fieldByte record length 0x17)
  let serialNumber ← copySmbiosString L table fuel stringsStart next (← fieldByte record length 0x18)
  let partNumber ← copySmbiosString L table fuel stringsStart next (← fieldByte record length 0x1a)
  some { locator, bankLocator, manufacturer, partNumber, serialNumber, memoryType, formFactor, sizeBytes,
         speedMhz := speed }

/-- `info->form_factor` is the first known one. -/
def noteFormFactor (form : UInt8) (length : Nat) (formFactor : Chars 64) : Chars 64 :=
  if formFactor.text = ascii "N/A" ∧ 0x0e < length ∧ formFactorName form ≠ ascii "Unknown" ∧ formFactorName form ≠ []
  then Chars.ofText (formFactorName form)
  else formFactor

/-- `info->speed_mhz` is the least positive one. -/
def noteSpeed (speed least : Nat) : Nat := if 0 < speed ∧ (least = 0 ∨ speed < least) then speed else least

def addModule (module : LsmSmbiosMemoryModule) (info : LsmSmbiosMemoryInfo)
    (room : info.modules.length < lsmSmbiosMaxModules) : LsmSmbiosMemoryInfo :=
  { info with
    modules := info.modules ++ [module]
    capacity := by
      rw [List.length_append, List.length_singleton]
      exact room }

def memoryDevice (table : List UInt8) (fuel : Nat) (record : Record) (length stringsStart next : Nat) (walk : Walk) :
    Option Walk := do
  let info := { walk.info with slotsTotal := walk.info.slotsTotal + 1 }
  let populated ← populatedMemoryDevice L record length
  if populated then do
    let speed ← memorySpeed L record length
    let form ← fieldByte record length 0x0e
    let info := { info with
      slotsUsed := info.slotsUsed + 1
      speedMhz := noteSpeed speed info.speedMhz
      formFactor := noteFormFactor form length info.formFactor }
    if room : info.modules.length < lsmSmbiosMaxModules then do
      let module ← memoryModule L table fuel record length stringsStart next speed
      some { walk with info := addModule module info room }
    else some { info, modulesComplete := false }
  else some { walk with info }

def smbiosTypeMemoryDevice : UInt8 := 17
def smbiosTypeEnd : UInt8 := 127

/-- One turn of the loop over the structures. -/
def structureTurn (table : List UInt8) (fuel : Nat) : Nat × Walk → Option (Nat × Walk ⊕ Walk)
  | (offset, walk) =>
    if table.length < offset + 4 then some (.inr walk)
    else do
      let type ← table[offset]?
      let length ← (table[offset + 1]?).map UInt8.toNat
      if length < 4 ∨ table.length < offset + length then some (.inr walk)
      else do
        let stringsStart := offset + length
        let next ← doubleNul table fuel stringsStart
        if table.length ≤ next + 1 then some (.inr walk)
        else do
          let walk ←
            (if type = smbiosTypeMemoryDevice then
              memoryDevice L table fuel (fun k => table[offset + k]?) length stringsStart next walk
            else some walk)
          if type = smbiosTypeEnd then some (.inr walk) else some (.inl (next + 2, walk))

/-! ### The call -/

/-- What goes wrong once the size of the file is known. -/
inductive DmiFault
  | allocate
  | read (detail : Text)
  | close (detail : Text)
  deriving DecidableEq

/-- What the system calls on the path answer. -/
inductive DmiFile
  | unopened (detail : Text)
  | uninspected (detail : Text)
  | opened (bytes : List UInt8) (fault : Option DmiFault)

def setError (message detail : Text) : Text := if detail = [] then message else message ++ ascii ": " ++ detail

def lsmDmiMaxBytes : Nat := 16 * 1024 * 1024

def readTable : DmiFile → Except Text (List UInt8)
  | .unopened detail => .error (setError (ascii "Unable to open DMI table") detail)
  | .uninspected detail => .error (setError (ascii "Unable to inspect DMI table") detail)
  | .opened bytes fault =>
    if bytes.length = 0 ∨ lsmDmiMaxBytes < bytes.length then .error (ascii "DMI table has an invalid size")
    else
      match fault with
      | none => .ok bytes
      | some .allocate => .error (setError (ascii "Unable to allocate DMI buffer") (ascii "out of memory"))
      | some (.read detail) => .error (setError (ascii "Unable to read DMI table") detail)
      | some (.close detail) => .error (setError (ascii "Unable to close DMI table") detail)

/-- The structure the caller supplied, and the diagnostic when the call fails. -/
structure Answer where
  info : LsmSmbiosMemoryInfo
  error : Option Text
  deriving DecidableEq

/-- What the call returns once the walk has ended. -/
def conclude (walk : Walk) : Answer :=
  if walk.modulesComplete = false then
    ⟨.cleared, some (ascii "SMBIOS memory module count exceeds supported capacity")⟩
  else if walk.info.slotsTotal = 0 then ⟨walk.info, some (ascii "No SMBIOS memory-device records found")⟩
  else ⟨walk.info, none⟩

def lsmSmbiosMemoryRead (fuel : Nat) (file : DmiFile) : Option Answer :=
  match readTable file with
  | .error message => some ⟨.cleared, some message⟩
  | .ok table => (iterate (structureTurn L table fuel) fuel (0, ⟨.cleared, true⟩)).map conclude

end

end SystemMonitor.Smbios
