import SystemMonitor.Lib.Lines
import SystemMonitor.Lib.Scanf
import SystemMonitor.Procfs.Library

/-! The memory map of a process, as the inspector reads it from `smaps` or `maps`.

The file is read in buffers of a fixed size. A buffer that scans as the head of a mapping
begins an item, and every other buffer is tried for the accounting of the last item. -/
namespace SystemMonitor.Process.MemoryMaps
open Lib Lib.Scanf

def intMax : Nat := 2 ^ 31 - 1
def pathMax : Nat := 4096
def lsmInspectionMapPathLen : Nat := 1024

/-- What `fgets` stores of a line at once: `sizeof(line) - 1`. -/
def lineRoom : Nat := 4095

def eio : Nat := 5
def enomem : Nat := 12
def einval : Nat := 22
def enametoolong : Nat := 36

structure LsmMemoryMapInfo where
  startAddress : Nat
  endAddress : Nat
  fileOffset : Nat
  inode : Nat
  privateCleanBytes : Nat := 0
  privateDirtyBytes : Nat := 0
  sharedCleanBytes : Nat := 0
  sharedDirtyBytes : Nat := 0
  accountingAvailable : Bool := false
  permissions : Chars 8
  device : Chars 32
  path : Chars lsmInspectionMapPathLen
  deriving DecidableEq

/-- What is used of Common besides the readers of kernel text. -/
structure Library extends Procfs.Library where
  u64MultiplyChecked : Nat → Nat → Option Nat
  multiplyChecked_eq : ∀ a b, u64MultiplyChecked a b = if a * b ≤ uint64Max then some (a * b) else none

def productChecked (a b : Nat) : Option Nat := if a * b ≤ uint64Max then some (a * b) else none

theorem productChecked_eq (a b : Nat) : productChecked a b = if a * b ≤ uint64Max then some (a * b) else none := rfl

/-- The documented behaviour as functions. -/
def Library.documented : Library where
  toLibrary := .documented
  u64MultiplyChecked := productChecked
  multiplyChecked_eq := productChecked_eq

/-! ### The lines -/

structure Header where
  start : Nat
  stop : Nat
  permissions : Text
  offset : Nat
  device : Text
  inode : Nat

/-- `sscanf(line, "%llx-%llx %7s %llx %31s %llu %n", …)`, and the text behind it. -/
def scanHeader (line : Text) : Option (Header × Text) := do
  let start ← scanUnsigned hexadecimal 64 line
  let dash ← scanChar 45 start.2
  let stop ← scanUnsigned hexadecimal 64 dash
  let permissions ← scanWord 7 stop.2
  let offset ← scanUnsigned hexadecimal 64 permissions.2
  let device ← scanWord 31 offset.2
  let inode ← scanUnsigned decimal 64 device.2
  return (⟨start.1, stop.1, permissions.1, offset.1, device.1, inode.1⟩, skipSpace inode.2)

def isBlank (b : UInt8) : Bool := b == 32 || b == 9

/-- The path name in the text behind the header. -/
def pathname (tail : Text) : Text :=
  ((tail.dropWhile isBlank).takeWhile fun b => b != 13 && b != 10).take (lsmInspectionMapPathLen - 1)

def Header.item (h : Header) (tail : Text) : LsmMemoryMapInfo where
  startAddress := h.start
  endAddress := h.stop
  fileOffset := h.offset
  inode := h.inode
  permissions := Chars.ofText h.permissions
  device := Chars.ofText h.device
  path := Chars.ofText (pathname tail)

variable (lib : Library)

/-- The bytes of an accounting line of that name. -/
def parseSmapsBytes (line name : Text) : Option Nat :=
  if name.isPrefixOf line then
    (lib.parseU64Token ((line.drop name.length).dropWhile lib.asciiIsSpace)).bind fun kib =>
      let cursor := kib.2.dropWhile lib.asciiIsSpace
      if cursor ≠ [] ∧ (ascii "kB").isPrefixOf cursor = false then none else lib.u64MultiplyChecked kib.1 1024
  else none

/-- A line that is no header, for the item at hand. -/
def account (current : LsmMemoryMapInfo) (line : Text) : LsmMemoryMapInfo :=
  match parseSmapsBytes lib line (ascii "Private_Clean:") with
  | some bytes => {current with privateCleanBytes := bytes, accountingAvailable := true}
  | none =>
    match parseSmapsBytes lib line (ascii "Private_Dirty:") with
    | some bytes => {current with privateDirtyBytes := bytes, accountingAvailable := true}
    | none =>
      match parseSmapsBytes lib line (ascii "Shared_Clean:") with
      | some bytes => {current with sharedCleanBytes := bytes, accountingAvailable := true}
      | none =>
        match parseSmapsBytes lib line (ascii "Shared_Dirty:") with
        | some bytes => {current with sharedDirtyBytes := bytes, accountingAvailable := true}
        | none => current

/-- Only `smaps` has accounting lines. -/
def accountLast (detailed : Bool) : List LsmMemoryMapInfo → Text → List LsmMemoryMapInfo
  | [], _ => []
  | current :: items, line => if detailed then account lib current line :: items else current :: items

/-! ### The file -/

/-- A file that was opened: its bytes, and what reading to its end and closing it leave in
`errno` where they fail. -/
structure Stream where
  bytes : Text
  readError : Option Nat := none
  closeError : Option Nat := none

structure System where
  procfsRoot : Text
  /-- `fopen`, or its `errno`. -/
  fopen : Text → Except Nat Stream
  /-- `lsm_array_reserve`: what is left in `errno` where there is no room for so many items. -/
  reserve : Nat → Option Nat

def errnoOr (errno fallback : Nat) : Nat := if errno ≠ 0 then errno else fallback

/-- The loop over the buffers; the items are newest first. -/
def readLines (reserve : Nat → Option Nat) (detailed : Bool) :
    List LsmMemoryMapInfo → List Text → Except Nat (List LsmMemoryMapInfo)
  | items, [] => .ok items
  | items, line :: lines =>
    match scanHeader line with
    | some (header, tail) =>
      match reserve (items.length + 1) with
      | some errno => .error (errnoOr errno enomem)
      | none => readLines reserve detailed (header.item tail :: items) lines
    | none => readLines reserve detailed (accountLast lib detailed items line) lines

/-- The C strings that `fgets` leaves in the buffer, one after another. -/
def linesOf (bytes : Text) : List Text := (Lines.buffersOf lineRoom bytes).map Lines.cString

def readStream (reserve : Nat → Option Nat) (detailed : Bool) (file : Stream) :
    Except Nat (List LsmMemoryMapInfo) :=
  match readLines lib reserve detailed [] (linesOf file.bytes) with
  | .error errno => .error errno
  | .ok items =>
    match file.readError, file.closeError with
    | some errno, _ => .error (errnoOr errno eio)
    | none, some errno => .error (errnoOr errno eio)
    | none, none => .ok items.reverse

def nativePid (processId : Nat) : Option Nat := if processId = 0 ∨ intMax < processId then none else some processId

/-- `"%s/%d/%s"`, where it fits. -/
def processPath (root : Text) (pid : Nat) (suffix : Text) : Option Text :=
  let path := root ++ ascii "/" ++ Decimal.print pid ++ ascii "/" ++ suffix
  if pid < 1 ∨ pathMax ≤ path.length then none else some path

def lsmProcessInspectionMemoryMapsChecked (sys : System) (processId : Nat) : Except Nat (List LsmMemoryMapInfo) :=
  match nativePid processId with
  | none => .error einval
  | some pid =>
    match processPath sys.procfsRoot pid (ascii "smaps") with
    | none => .error enametoolong
    | some path =>
      match sys.fopen path with
      | .ok file => readStream lib sys.reserve true file
      | .error _ =>
        match processPath sys.procfsRoot pid (ascii "maps") with
        | none => .error enametoolong
        | some path =>
          match sys.fopen path with
          | .ok file => readStream lib sys.reserve false file
          | .error errno => .error errno

/-! ### What a line does -/

/-- A line, where there is room for every item. -/
def onLine (detailed : Bool) (items : List LsmMemoryMapInfo) (line : Text) : List LsmMemoryMapInfo :=
  match scanHeader line with
  | some (header, tail) => header.item tail :: items
  | none => accountLast lib detailed items line

/-- A line that is no header, for the item it falls to. -/
def onItem (detailed : Bool) (current : LsmMemoryMapInfo) (line : Text) : LsmMemoryMapInfo :=
  if detailed then account lib current line else current

section
variable {lib} {detailed : Bool}

theorem readLines_eq {reserve : Nat → Option Nat} (hreserve : ∀ n, reserve n = none) (items : List LsmMemoryMapInfo)
    (lines : List Text) :
    readLines lib reserve detailed items lines = .ok (lines.foldl (onLine lib detailed) items) := by
  induction lines generalizing items with
  | nil => rfl
  | cons line lines ih =>
    rw [readLines, List.foldl_cons, onLine]
    cases scanHeader line with
    | none => exact ih _
    | some found =>
      dsimp only
      rw [hreserve]
      exact ih _

theorem length_onLine (items : List LsmMemoryMapInfo) (line : Text) :
    (onLine lib detailed items line).length = items.length + if (scanHeader line).isSome then 1 else 0 := by
  unfold onLine
  cases scanHeader line with
  | some found => rfl
  | none =>
    cases items with
    | nil => rfl
    | cons current items =>
      dsimp only [accountLast]
      split <;> rfl

/-- Every line that scans as a header is an item. -/
theorem length_foldl_onLine (items : List LsmMemoryMapInfo) (lines : List Text) :
    (lines.foldl (onLine lib detailed) items).length =
      items.length + lines.countP fun line => (scanHeader line).isSome := by
  induction lines generalizing items with
  | nil => rfl
  | cons line lines ih => rw [List.foldl_cons, ih, length_onLine, List.countP_cons]; omega

theorem foldl_onLine_plain {lines : List Text} (hlines : ∀ line ∈ lines, scanHeader line = none)
    (current : LsmMemoryMapInfo) (items : List LsmMemoryMapInfo) :
    lines.foldl (onLine lib detailed) (current :: items) = lines.foldl (onItem lib detailed) current :: items := by
  induction lines generalizing current with
  | nil => rfl
  | cons line lines ih =>
    have hrest := ih fun l hl => hlines l (List.mem_cons_of_mem _ hl)
    have hline : onLine lib detailed (current :: items) line = onItem lib detailed current line :: items := by
      rw [onLine, hlines line (List.mem_cons_self ..)]
      dsimp only [accountLast, onItem]
      split <;> rfl
    rw [List.foldl_cons, List.foldl_cons, hline, hrest]

/-- The item with other accounting. -/
def LsmMemoryMapInfo.accounted (current : LsmMemoryMapInfo) (privateClean privateDirty sharedClean sharedDirty : Nat) :
    LsmMemoryMapInfo :=
  {current with
    privateCleanBytes := privateClean
    privateDirtyBytes := privateDirty
    sharedCleanBytes := sharedClean
    sharedDirtyBytes := sharedDirty
    accountingAvailable := true}

/-- A line changes nothing of an item but its accounting. -/
theorem account_accounted (current : LsmMemoryMapInfo) (line : Text) (a b c d : Nat) :
    (account lib current line).accounted a b c d = current.accounted a b c d := by
  unfold account
  repeat' split
  all_goals rfl

theorem foldl_onItem_accounted (current : LsmMemoryMapInfo) (lines : List Text) (a b c d : Nat) :
    (lines.foldl (onItem lib detailed) current).accounted a b c d = current.accounted a b c d := by
  induction lines generalizing current with
  | nil => rfl
  | cons line lines ih =>
    rw [List.foldl_cons, ih, onItem]
    split
    · exact account_accounted ..
    · rfl

end

/-! ### A run of the call -/

/-- The file is there, and reading and allocating succeed. -/
structure Exposes (sys : System) (processId : Nat) (detailed : Bool) (text : Text) : Prop where
  native : processId ≠ 0 ∧ processId ≤ intMax
  reserve : ∀ n, sys.reserve n = none
  file : ∃ path, processPath sys.procfsRoot processId (ascii (if detailed then "smaps" else "maps")) = some path ∧
    sys.fopen path = .ok {bytes := text}
  /-- Without `smaps` the reader falls back to `maps`. -/
  fallback : detailed = false → ∃ path errno, processPath sys.procfsRoot processId (ascii "smaps") = some path ∧
    sys.fopen path = .error errno

theorem memoryMaps_eq {sys : System} {processId : Nat} {detailed : Bool} {text : Text}
    (h : Exposes sys processId detailed text) : lsmProcessInspectionMemoryMapsChecked lib sys processId =
      .ok ((linesOf text).foldl (onLine lib detailed) []).reverse := by
  obtain ⟨path, hpath, hopen⟩ := h.file
  have hread : readStream lib sys.reserve detailed {bytes := text} =
      .ok ((linesOf text).foldl (onLine lib detailed) []).reverse := by
    rw [readStream, readLines_eq h.reserve]
  have hpid : nativePid processId = some processId :=
    if_neg (not_or.mpr ⟨h.native.1, Nat.not_lt.mpr h.native.2⟩)
  rw [lsmProcessInspectionMemoryMapsChecked, hpid]
  dsimp only
  cases detailed with
  | true =>
    rw [if_pos rfl] at hpath
    rw [hpath]
    dsimp only
    rw [hopen]
    exact hread
  | false =>
    obtain ⟨first, errno, hfirst, hfailed⟩ := h.fallback rfl
    rw [if_neg Bool.false_ne_true] at hpath
    rw [hfirst]
    dsimp only
    rw [hfailed]
    dsimp only
    rw [hpath]
    dsimp only
    rw [hopen]
    exact hread

end SystemMonitor.Process.MemoryMaps
