import SystemMonitor.Lib.Decimal
import SystemMonitor.Lib.Eviction
import SystemMonitor.Process.Model

/-! The retained accounting model of App History.

Entries are kept per account and executable in a hash table, with a count that
is maintained by hand beside it; samples are kept per process instance. The
table is bounded: what exceeds the limit is evicted by recency, except the
entries of the current snapshot, which carry its generation. -/
namespace SystemMonitor.History
open Lib Process

structure LsmHistoryEntry where
  key : Text
  name : Text
  user : Text
  identity : Text
  cpuSeconds : ℚ := 0
  activeSeconds : ℚ := 0
  readBytes : Nat := 0
  writeBytes : Nat := 0
  peakRssBytes : Nat := 0
  currentRssBytes : Nat := 0
  liveGeneration : Nat := 0
  firstSeen : Int
  lastSeen : Int
  deriving DecidableEq

abbrev Entries := Table LsmHistoryEntry.key

def lsmHistoryMaxEntries : Nat := 4096

/-- Last seen, then first seen, then `strcmp` of the keys. -/
def historyEntryRecencyCompare : LsmHistoryEntry → LsmHistoryEntry → Ordering :=
  compareLex (compareOn LsmHistoryEntry.lastSeen)
    (compareLex (compareOn LsmHistoryEntry.firstSeen) (compareOn LsmHistoryEntry.key))

instance : Std.TransCmp historyEntryRecencyCompare :=
  inferInstanceAs (Std.TransCmp (compareLex (compareOn LsmHistoryEntry.lastSeen)
    (compareLex (compareOn LsmHistoryEntry.firstSeen) (compareOn LsmHistoryEntry.key))))

/-- The identity of a process instance. -/
structure LsmHistoryProcessKey where
  pid : Nat
  instanceId : Nat
  deriving DecidableEq

structure LsmHistorySample where
  key : LsmHistoryProcessKey
  cpuTimeNanoseconds : Nat
  readBytes : Nat
  writeBytes : Nat
  generation : Nat
  deriving DecidableEq

abbrev Samples := Table LsmHistorySample.key

structure LsmHistoryState where
  appHistory : Entries := .empty
  appHistorySamples : Samples := .empty
  lastSample : ℚ := 0
  generation : Nat := 0
  entryCount : Nat := 0
  mutationGeneration : Nat := 0
  dirty : Bool := false
  loadPending : Bool := false
  savePending : Bool := false
  saveAgain : Bool := false

def historyMarkDirty (s : LsmHistoryState) : LsmHistoryState :=
  {s with
    mutationGeneration := if s.mutationGeneration < uintMax then s.mutationGeneration + 1 else s.mutationGeneration
    dirty := true}

/-! ### Retention -/

/-- What an eviction leaves alone: nothing when the generation is zero. -/
def shielded (protectedGeneration : Nat) (entry : LsmHistoryEntry) : Bool :=
  protectedGeneration != 0 && entry.liveGeneration == protectedGeneration

def historyOldestKey (walk : Walk LsmHistoryEntry) (s : LsmHistoryState) (protectedGeneration : Nat) : Option Text :=
  if s.entryCount = 0 then none
  else (oldest (shielded protectedGeneration) historyEntryRecencyCompare
    (walk.order s.appHistory.rows)).map LsmHistoryEntry.key

/-- `none`: nothing could be removed. -/
def historyRemoveOldest (walk : Walk LsmHistoryEntry) (s : LsmHistoryState) (protectedGeneration : Nat) :
    Option LsmHistoryState :=
  match historyOldestKey walk s protectedGeneration with
  | none => none
  | some key => some {s with appHistory := s.appHistory.erase [key], entryCount := s.entryCount - 1}

/-- The loop for when no array could be allocated; every turn lowers the count. -/
def removeOldestLoop (walk : Walk LsmHistoryEntry) (protectedGeneration : Nat) :
    Nat → LsmHistoryState → LsmHistoryState × Bool
  | 0, s => (s, false)
  | fuel + 1, s =>
    if lsmHistoryMaxEntries < s.entryCount then
      match historyRemoveOldest walk s protectedGeneration with
      | none => (s, false)
      | some s' => ((removeOldestLoop walk protectedGeneration fuel s').1, true)
    else (s, false)

/-- The candidates of an eviction, least recent first. The order is total on
distinct keys, so any sorting function gives this list. -/
def sortedCandidates (walk : Walk LsmHistoryEntry) (s : LsmHistoryState) (protectedGeneration : Nat) :
    List LsmHistoryEntry :=
  ((walk.order s.appHistory.rows).filter fun e => !shielded protectedGeneration e).insertionSort
    fun a b => (historyEntryRecencyCompare a b).isLE = true

/-- One walk, one sort, one removal per victim. -/
def trimBatch (walk : Walk LsmHistoryEntry) (s : LsmHistoryState) (protectedGeneration : Nat) :
    LsmHistoryState × Bool :=
  let excess := s.entryCount - lsmHistoryMaxEntries
  let candidates := sortedCandidates walk s protectedGeneration
  let kept := s.appHistory.erase ((candidates.take (min excess candidates.length)).map LsmHistoryEntry.key)
  let removed := s.appHistory.rows.length - kept.rows.length
  ({s with appHistory := kept, entryCount := s.entryCount - removed}, decide (0 < removed))

/-- Whether something was evicted. `allocated`: the candidate array was. -/
def historyTrimToLimit (walk : Walk LsmHistoryEntry) (allocated : Bool) (s : LsmHistoryState)
    (protectedGeneration : Nat) : LsmHistoryState × Bool :=
  if s.entryCount ≤ lsmHistoryMaxEntries then (s, false)
  else if allocated then trimBatch walk s protectedGeneration
  else removeOldestLoop walk protectedGeneration s.entryCount s

theorem removeOldestLoop_frame (walk : Walk LsmHistoryEntry) (protectedGeneration fuel : Nat) (s : LsmHistoryState) :
    let t := (removeOldestLoop walk protectedGeneration fuel s).1
    t = {s with appHistory := t.appHistory, entryCount := t.entryCount} := by
  induction fuel generalizing s with
  | zero => rfl
  | succ fuel ih =>
    simp only [removeOldestLoop, historyRemoveOldest]
    by_cases hover : lsmHistoryMaxEntries < s.entryCount
    · rw [if_pos hover]
      cases historyOldestKey walk s protectedGeneration with
      | none => rfl
      | some key =>
        show (removeOldestLoop walk protectedGeneration fuel
          {s with appHistory := s.appHistory.erase [key], entryCount := s.entryCount - 1}).1 = _
        rw [ih]
    · rw [if_neg hover]

/-- Trimming touches the table and its count only. -/
theorem historyTrimToLimit_frame (walk : Walk LsmHistoryEntry) (allocated : Bool) (s : LsmHistoryState)
    (protectedGeneration : Nat) :
    let t := (historyTrimToLimit walk allocated s protectedGeneration).1
    t = {s with appHistory := t.appHistory, entryCount := t.entryCount} := by
  unfold historyTrimToLimit
  by_cases hwithin : s.entryCount ≤ lsmHistoryMaxEntries
  · rw [if_pos hwithin]
  · rw [if_neg hwithin]
    cases allocated with
    | true => rfl
    | false => exact removeOldestLoop_frame walk protectedGeneration s.entryCount s

/-! ### Identities -/

/-- `account_identity` as the Linux backend prints it. -/
def accountIdentity (account : Option Nat) : Text :=
  match account with
  | none => []
  | some uid => ascii "uid:" ++ Decimal.print uid

/-- The executable, else the first word of the command, else the name. -/
def historyExecutable (process : LsmProcessInfo) : Text :=
  let executable :=
    if process.executable.text ≠ [] then process.executable.text
    else if process.command.text ≠ [] ∧ process.command.text.head? ≠ some 91 then
      (process.command.text.takeWhile fun b => b != 32 && b != 9).take 511
    else []
  if executable = [] then process.name.text else executable

/-- `snprintf` into `LSM_PATH_LEN + 64` bytes. -/
def historyKey (process : LsmProcessInfo) : Text :=
  (accountIdentity process.account ++ 124 :: historyExecutable process).take 575

end SystemMonitor.History
