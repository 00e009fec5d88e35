import SystemMonitor.Lib.Lines
import SystemMonitor.History.Ingest

/-! The history file: serialising the retained entries, and loading them.

A save request holds copies of the entries whose strings have their tabs and
line ends replaced by spaces; it is written as a header and one line of eleven
fields per entry. The loader reads lines of bounded length, skips comments, and
keeps the most recent entries when there are too many. -/
namespace SystemMonitor.History
open Lib Process

/-! ### Serialising -/

structure LsmHistoryPersistEntry where
  key : Text
  name : Text
  user : Text
  identity : Text
  cpuSeconds : ℚ
  activeSeconds : ℚ
  readBytes : Nat
  writeBytes : Nat
  peakRssBytes : Nat
  firstSeen : Int
  lastSeen : Int
  deriving DecidableEq

structure LsmHistorySaveRequest where
  entries : List LsmHistoryPersistEntry
  generation : Nat
  deriving DecidableEq

/-- Tab, carriage return and newline become a space. -/
def copyRecordString (source : Text) : Text := source.map fun b => if b = 9 ∨ b = 13 ∨ b = 10 then 32 else b

def persistEntry (entry : LsmHistoryEntry) : LsmHistoryPersistEntry where
  key := copyRecordString entry.key
  name := copyRecordString entry.name
  user := copyRecordString entry.user
  identity := copyRecordString entry.identity
  cpuSeconds := entry.cpuSeconds
  activeSeconds := entry.activeSeconds
  readBytes := entry.readBytes
  writeBytes := entry.writeBytes
  peakRssBytes := entry.peakRssBytes
  firstSeen := entry.firstSeen
  lastSeen := entry.lastSeen

/-- `history_save_request_create`, when its allocations succeed: at most as many
records as the count says. -/
def historySaveRequestCreate (walk : Walk LsmHistoryEntry) (s : LsmHistoryState) : LsmHistorySaveRequest where
  entries := ((walk.order s.appHistory.rows).take s.entryCount).map persistEntry
  generation := s.mutationGeneration

/-- `none`: a number of seconds could not be formatted. -/
def recordFields (numerals : Numerals) (entry : LsmHistoryPersistEntry) : Option (List Text) :=
  match numerals.formatFixed entry.cpuSeconds, numerals.formatFixed entry.activeSeconds with
  | some cpuSeconds, some activeSeconds =>
    some [entry.key, entry.name, entry.user, entry.identity, cpuSeconds, activeSeconds,
      Decimal.print entry.readBytes, Decimal.print entry.writeBytes, Decimal.print entry.peakRssBytes,
      Decimal.printInt entry.firstSeen, Decimal.printInt entry.lastSeen]
  | _, _ => none

def historyHeader : Text := ascii "# System-Monitor App History v1"

/-- The text of a request; `none` is `ERANGE`. -/
def requestOutput (numerals : Numerals) (request : LsmHistorySaveRequest) : Option Text :=
  (request.entries.mapM (recordFields numerals)).map fun records =>
    (historyHeader :: records.map (Lines.join 9)).flatMap (· ++ [10])

/-! ### Loading -/

def loadedEntry (numerals : Numerals) (fields : List Text) : Option LsmHistoryEntry :=
  match fields with
  | [key, name, user, identity, cpuField, activeField, readField, writeField, peakField, firstField, lastField] => do
    let cpuSeconds ← numerals.parseSeconds cpuField
    let activeSeconds ← numerals.parseSeconds activeField
    let readBytes ← numerals.parseU64 readField
    let writeBytes ← numerals.parseU64 writeField
    let peakRssBytes ← numerals.parseU64 peakField
    let firstSeen ← numerals.parseI64 firstField
    let lastSeen ← numerals.parseI64 lastField
    some {key, name, user, identity, cpuSeconds, activeSeconds, readBytes, writeBytes, peakRssBytes, firstSeen, lastSeen}
  | _ => none

/-- The row of a new key when the table is full: the oldest entry makes room, or
the row is dropped. Either way the file holds more than is kept. -/
def loadOverLimit (walk : Walk LsmHistoryEntry) (s : LsmHistoryState) (entry : LsmHistoryEntry) :
    LsmHistoryState × Bool :=
  match (historyOldestKey walk s 0).bind s.appHistory.find? with
  | none => (s, true)
  | some oldest =>
    if (historyEntryRecencyCompare entry oldest).isLE then (s, true)
    else match historyRemoveOldest walk s 0 with
      | none => (s, true)
      | some s' => ({s' with appHistory := s'.appHistory.put entry, entryCount := s'.entryCount + 1}, true)

/-- Whether a row must not survive as it is. -/
def historyLoadRecord (numerals : Numerals) (walk : Walk LsmHistoryEntry) (s : LsmHistoryState) (line : Text) :
    LsmHistoryState × Bool :=
  if line = [] ∨ line.head? = some 35 then (s, false)
  else match loadedEntry numerals (Lines.strsplit 9 11 line) with
    | none => (s, true)
    | some entry =>
      if (s.appHistory.find? entry.key).isSome then ({s with appHistory := s.appHistory.put entry}, false)
      else if lsmHistoryMaxEntries ≤ s.entryCount then loadOverLimit walk s entry
      else ({s with appHistory := s.appHistory.put entry, entryCount := s.entryCount + 1}, false)

/-- `LSM_HISTORY_MAX_LINE_BYTES`, less the terminator. -/
def lineRoom : Nat := 16383

def historyLoadLine (numerals : Numerals) (walk : Walk LsmHistoryEntry) (acc : LsmHistoryState × Bool) (line : Text) :
    LsmHistoryState × Bool :=
  let loaded := historyLoadRecord numerals walk acc.1 line
  (loaded.1, acc.2 || loaded.2)

/-- The loader's own state, and whether something must not survive. No failure
of the stream is modelled here. -/
def historyLoadPath (numerals : Numerals) (walk : Walk LsmHistoryEntry) (bytes : Text) : LsmHistoryState × Bool :=
  Lines.foldLines lineRoom (historyLoadLine numerals walk) (fun acc => (acc.1, true)) bytes.length ({}, false) bytes

end SystemMonitor.History
