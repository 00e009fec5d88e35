import Mathlib.Data.Rat.Floor
import SystemMonitor.Lib.Lines
import SystemMonitor.Storage.Model

/-! Mount records and the filesystem inventory.

A mountinfo file has one line per mount, and fields in it are words. The parser takes a
line as a C string; the visitor takes the lines as `getline` returns them, and the
inventory is collected by the visitor and sorted afterwards. What the system
contributes (the file, `statvfs`, the allocations) is an input. -/
namespace SystemMonitor.Mounts
open Lib
open Storage (Path strcmpKey)

structure LsmMountInfoEntry where
  majorNumber : Nat
  minorNumber : Nat
  source : Path
  target : Path
  filesystem : Chars 64
  deriving DecidableEq

structure LsmFilesystemInfo where
  source : Path
  target : Path
  filesystem : Chars 64
  totalBytes : Nat := 0
  freeBytes : Nat := 0
  usedBytes : Nat := 0
  availableBytes : Nat := 0
  usedPercent : Nat := 0
  capacityAvailable : Bool := false
  normallyVisible : Bool := false
  deriving DecidableEq

/-- `compare_filesystems` does not put the second before the first. -/
def compareFilesystems (left right : LsmFilesystemInfo) : Prop :=
  strcmpKey left.target.text < strcmpKey right.target.text ∨
    strcmpKey left.target.text = strcmpKey right.target.text ∧
      strcmpKey left.source.text ≤ strcmpKey right.source.text

instance : DecidableRel compareFilesystems := fun _ _ => inferInstanceAs (Decidable (_ ∨ _))

theorem compareFilesystems_total (a b : LsmFilesystemInfo) : compareFilesystems a b ∨ compareFilesystems b a := by
  rcases lt_trichotomy (strcmpKey a.target.text) (strcmpKey b.target.text) with h | h | h
  · exact Or.inl (Or.inl h)
  · rcases le_total (strcmpKey a.source.text) (strcmpKey b.source.text) with hs | hs
    · exact Or.inl (Or.inr ⟨h, hs⟩)
    · exact Or.inr (Or.inr ⟨h.symm, hs⟩)
  · exact Or.inr (Or.inl h)

theorem compareFilesystems_trans {a b c : LsmFilesystemInfo} (hab : compareFilesystems a b)
    (hbc : compareFilesystems b c) : compareFilesystems a c := by
  rcases hab with hab | ⟨hab, hsource⟩
  · rcases hbc with hbc | ⟨hbc, -⟩
    · exact Or.inl (hab.trans hbc)
    · exact Or.inl (hbc ▸ hab)
  · rcases hbc with hbc | ⟨hbc, hsource'⟩
    · exact Or.inl (hab ▸ hbc)
    · exact Or.inr ⟨hab.trans hbc, hsource.trans hsource'⟩

/-- What the parser and the collector use of Common and of the C library. -/
structure Library where
  asciiIsSpace : UInt8 → Bool
  /-- A whole decimal numeral. -/
  parseU64 : Text → Option Nat
  /-- The decimal numeral at the cursor, and the text behind it. -/
  parseU64Token : Text → Option (Nat × Text)
  u64MultiplyChecked : Nat → Nat → Option Nat
  percentU64 : Nat → Nat → ℚ
  qsort : List LsmFilesystemInfo → List LsmFilesystemInfo
  asciiIsSpace_iff : ∀ b, asciiIsSpace b = true ↔ b = 32 ∨ 9 ≤ b ∧ b ≤ 13
  parseU64_print : ∀ n, n ≤ uint64Max → parseU64 (Decimal.print n) = some n
  parseU64Token_print : ∀ n rest, n ≤ uint64Max → rest = [] ∨ rest.head? = some 58 →
    parseU64Token (Decimal.print n ++ rest) = some (n, rest)
  qsort_perm : ∀ items, (qsort items).Perm items
  qsort_sorted : ∀ items, (qsort items).Pairwise compareFilesystems

theorem takeWhile_print (n : Nat) {rest : Text} (h : rest = [] ∨ rest.head? = some 58) :
    (Decimal.print n ++ rest).takeWhile Decimal.isDigit = Decimal.print n := by
  rw [List.takeWhile_append_of_pos fun b hb => Decimal.mem_print hb]
  rcases h with rfl | h
  · rw [List.takeWhile_nil, List.append_nil]
  · cases rest with
    | nil => cases h
    | cons b rest =>
      cases h
      rw [List.takeWhile_cons_of_neg (by decide), List.append_nil]

/-- The documented behaviour as functions; the sort is stable. -/
def Library.documented : Library where
  asciiIsSpace b := b == 32 || (9 ≤ b && b ≤ 13)
  parseU64 t := (Decimal.parse t).filter (· ≤ uint64Max)
  parseU64Token t :=
    ((Decimal.parse (t.takeWhile Decimal.isDigit)).filter (· ≤ uint64Max)).map fun n =>
      (n, t.drop (t.takeWhile Decimal.isDigit).length)
  u64MultiplyChecked a b := if a * b ≤ uint64Max then some (a * b) else none
  percentU64 part whole := Arithmetic.documented.percentU64 part whole
  qsort items := items.insertionSort compareFilesystems
  asciiIsSpace_iff := space_iff
  parseU64_print := parse_print_u64
  parseU64Token_print n rest h hrest := by
    rw [takeWhile_print n hrest, Decimal.parse_print, List.drop_left]
    simp [h]
  qsort_perm _ := List.perm_insertionSort _ _
  qsort_sorted items :=
    have : Std.Total compareFilesystems := ⟨compareFilesystems_total⟩
    have : IsTrans LsmFilesystemInfo compareFilesystems := ⟨fun _ _ _ => compareFilesystems_trans⟩
    List.pairwise_insertionSort compareFilesystems items

/-! ### One line -/

section
variable (lib : Library)

/-- The next word and the text behind it; `none`: only space was left. After that every
later call finds nothing either. -/
def nextField (cursor : Text) : Option (Text × Text) :=
  let start := cursor.dropWhile lib.asciiIsSpace
  if start = [] then none
  else some (start.takeWhile fun b => !lib.asciiIsSpace b, (start.dropWhile fun b => !lib.asciiIsSpace b).drop 1)

def parseDeviceNumber (text : Text) : Option (Nat × Nat) :=
  match lib.parseU64Token text with
  | some (majorValue, 58 :: rest) =>
    match lib.parseU64Token rest with
    | some (minorValue, []) =>
      if uintMax < majorValue ∨ uintMax < minorValue then none else some (majorValue, minorValue)
    | _ => none
  | _ => none

def isOctal (b : UInt8) : Bool := 48 ≤ b && b ≤ 55

/-- The byte that three octal digits stand for. -/
def octalByte (a b c : UInt8) : Option UInt8 :=
  if isOctal a && isOctal b && isOctal c then
    let octal := (a.toNat - 48) * 64 + (b.toNat - 48) * 8 + (c.toNat - 48)
    if octal = 0 ∨ 255 < octal then none else some octal.toUInt8
  else none

/-- The text that is decoded after `output` bytes of a buffer of this size. -/
def decodeLoop (size : Nat) : Text → Nat → Option Text
  | [], _ => some []
  | 92 :: a :: b :: c :: rest, output =>
    match octalByte a b c with
    | none => none
    | some value => if size ≤ output + 1 then none else (decodeLoop size rest (output + 1)).map (value :: ·)
  | value :: rest, output =>
    if value = 92 then none
    else if size ≤ output + 1 then none
    else (decodeLoop size rest (output + 1)).map (value :: ·)

def decodeMountField (n : Nat) (encoded : Text) : Option (Chars n) :=
  if n = 0 then none else (decodeLoop n encoded 0).map Chars.ofText

/-- The cursor behind the field that is a dash; each turn takes a byte at least. -/
def separatorLoop : Nat → Text → Option Text
  | 0, _ => none
  | fuel + 1, cursor =>
    match nextField lib cursor with
    | none => none
    | some (field, rest) => if field = ascii "-" then some rest else separatorLoop fuel rest

def parseMountLine (line : Text) : Option LsmMountInfoEntry := do
  let (mountId, cursor) ← nextField lib line
  let (parentId, cursor) ← nextField lib cursor
  let (deviceNumber, cursor) ← nextField lib cursor
  let (root, cursor) ← nextField lib cursor
  let (target, cursor) ← nextField lib cursor
  let (_, cursor) ← nextField lib cursor
  let _ ← lib.parseU64 mountId
  let _ ← lib.parseU64 parentId
  guard (root.head? = some 47 ∧ target.head? = some 47)
  let cursor ← separatorLoop lib (cursor.length + 1) cursor
  let (filesystem, cursor) ← nextField lib cursor
  let (source, cursor) ← nextField lib cursor
  let (_, cursor) ← nextField lib cursor
  guard (nextField lib cursor = none)
  let (majorNumber, minorNumber) ← parseDeviceNumber lib deviceNumber
  let source ← decodeMountField 512 source
  let target ← decodeMountField 512 target
  let filesystem ← decodeMountField 64 filesystem
  return {majorNumber, minorNumber, source, target, filesystem}

/-! ### A file of lines -/

/-- What `getline` returns, one call after another; only the last may lack a newline. -/
def getlines : Text → List Text
  | [] => []
  | b :: rest =>
    if b = 10 then [b] :: getlines rest
    else match getlines rest with
      | [] => [[b]]
      | line :: lines => (b :: line) :: lines

/-- A file as it was read: the bytes up to its end or to a failed read. -/
structure MountFile where
  content : Text
  readOk : Bool
  closeOk : Bool

/-- A complete line with a valid record. -/
def recordOf (line : Text) : Option LsmMountInfoEntry :=
  if line.getLast? = some 10 then parseMountLine lib (Lines.cString line) else none

inductive VisitEnd where
  | complete
  | malformed
  | stoppedEarly
  deriving DecidableEq

/-- The loop over the lines, with the records delivered so far. -/
def visitLoop {σ : Type} (visitor : LsmMountInfoEntry → σ → Bool × σ) : List Text → Nat → σ → VisitEnd × Nat × σ
  | [], count, userData => (.complete, count, userData)
  | line :: lines, count, userData =>
    match recordOf lib line with
    | none => (.malformed, count, userData)
    | some entry =>
      let visited := visitor entry userData
      if visited.1 then visitLoop visitor lines (count + 1) visited.2
      else (.stoppedEarly, count + 1, visited.2)

/-- Whether the read is complete and validated, the count, and the visitor's data. `none`: the
file could not be opened. -/
def lsmMountinfoVisitFileChecked {σ : Type} (file : Option MountFile)
    (visitor : LsmMountInfoEntry → σ → Bool × σ) (userData : σ) : Bool × Nat × σ :=
  match file with
  | none => (false, 0, userData)
  | some file =>
    let visited := visitLoop lib visitor (getlines file.content) 0 userData
    (file.readOk && file.closeOk && visited.1 == .complete, visited.2)

/-! ### The inventory -/

structure Statvfs where
  fBlocks : Nat
  fBfree : Nat
  fBavail : Nat
  fFrsize : Nat
  fBsize : Nat

/-- What the collector asks of the system. -/
structure Host where
  /-- `statvfs`, for the record with this number; `none`: it failed. -/
  statvfs : Nat → Path → Option Statvfs
  /-- There is memory for this many records. -/
  reserve : Nat → Bool

def desktopStorageTypes : List Text :=
  ["ext2", "ext3", "ext4", "xfs", "btrfs", "f2fs", "jfs", "reiserfs", "vfat", "msdos", "exfat", "ntfs", "ntfs3",
    "fuseblk", "fuse", "zfs", "bcachefs", "udf", "iso9660", "nfs", "nfs4", "cifs", "smb3", "sshfs", "9p"].map ascii

def filesystemDefaultVisible (entry : LsmMountInfoEntry) : Bool :=
  entry.target.text == ascii "/" || (ascii "/dev/").isPrefixOf entry.source.text ||
    desktopStorageTypes.contains entry.filesystem.text

/-- The capacity of a record that `statvfs` answered for; a product that overflows leaves it unknown. -/
def collectCapacity (information : Option Statvfs) (item : LsmFilesystemInfo) : LsmFilesystemInfo :=
  match information with
  | none => item
  | some information =>
    let blockSize := if information.fFrsize ≠ 0 then information.fFrsize else information.fBsize
    match lib.u64MultiplyChecked information.fBlocks blockSize, lib.u64MultiplyChecked information.fBfree blockSize,
      lib.u64MultiplyChecked information.fBavail blockSize with
    | some total, some freeAll, some available =>
      let freeBytes := if freeAll < total then freeAll else total
      let usedBytes := if freeBytes ≤ total then total - freeBytes else 0
      { item with
        capacityAvailable := true
        totalBytes := total
        freeBytes
        availableBytes := if available < total then available else total
        usedBytes
        usedPercent := if total ≠ 0 then ⌊lib.percentU64 usedBytes total⌋.toNat else 0 }
    | _, _, _ => item

structure FilesystemCollector where
  items : List LsmFilesystemInfo := []
  allocationFailed : Bool := false

variable (host : Host)

def appendMount (entry : LsmMountInfoEntry) (collector : FilesystemCollector) : Bool × FilesystemCollector :=
  if host.reserve (collector.items.length + 1) then
    let item : LsmFilesystemInfo :=
      { source := .copyString entry.source.text entry.source.nulFree
        target := .copyString entry.target.text entry.target.nulFree
        filesystem := .copyString entry.filesystem.text entry.filesystem.nulFree
        normallyVisible := filesystemDefaultVisible entry }
    let item := collectCapacity lib (host.statvfs collector.items.length item.target) item
    (true, {collector with items := collector.items ++ [item]})
  else (false, {collector with allocationFailed := true})

/-- What is returned, the published items and the published count; `none` is a null pointer. -/
def lsmFilesystemInventoryCollect (file : Option MountFile) : Bool × Option (List LsmFilesystemInfo) × Nat :=
  let (readOk, _, collector) := lsmMountinfoVisitFileChecked lib file (appendMount lib host) {}
  if !readOk || collector.allocationFailed then (false, none, 0)
  else if collector.items.length = 0 then (true, none, 0)
  else
    (true, some (lib.qsort collector.items), collector.items.length)

end

end SystemMonitor.Mounts
