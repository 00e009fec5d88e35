import SystemMonitor.Lib.CStrings
import SystemMonitor.Lib.Lines
import SystemMonitor.Lib.Tally
import SystemMonitor.Process.Model
import SystemMonitor.Procfs.Library

/-! Reading the graphics counters of one process.

Every descriptor of the process has an information file, and the file of a descriptor that
belongs to a DRM client reports the counters of the client, a line for each. A client may
have several descriptors, and is counted at the first one; its engines are added to those
of the clients before it. The tables have a fixed size, and a call that would need more
fails as a whole. What the directory holds and what reading a file gives are inputs; memory
is always there, and `errno` is left out. -/
namespace SystemMonitor.Process.Drm
open Lib

/-- What the reader uses of Common. -/
structure Library where
  text : Procfs.Library
  arithmetic : Arithmetic
  helpers : TextHelpers
  pathBasename : Text → Text
  /-- The path that `infiltratr_path_join` makes. -/
  fullPath : Text → Text → Text
  /-- `infiltratr_parse_binary_quantity_u64`; `none`: the text is no quantity. -/
  parseBinaryQuantity : Text → Option Nat

/-- The units behind a number of bytes. -/
def binaryUnits : List (Text × Nat) :=
  [([], 1), (ascii "K", 2 ^ 10), (ascii "KiB", 2 ^ 10), (ascii "M", 2 ^ 20), (ascii "MiB", 2 ^ 20),
    (ascii "G", 2 ^ 30), (ascii "GiB", 2 ^ 30)]

/-- A numeral and a unit. -/
def binaryQuantity (t : Text) : Option Nat := do
  let count ← Decimal.parse (t.takeWhile Decimal.isDigit)
  let scale ← binaryUnits.lookup ((t.dropWhile Decimal.isDigit).dropWhile (· == 32))
  if count * scale ≤ uint64Max then some (count * scale) else none

/-- The documented behaviour as functions. -/
def Library.documented : Library where
  text := .documented
  arithmetic := .documented
  helpers := .documented
  pathBasename t := CStrings.afterLast 47 t
  fullPath base name := base ++ 47 :: name
  parseBinaryQuantity := binaryQuantity

def maxEngines : Nat := 32
def maxClients : Nat := 128
def maxRegions : Nat := 32
def intMax : Nat := 2 ^ 31 - 1

/-- What `fgets` stores in a `char[512]`. -/
def lineRoom : Nat := 511

/-! ### Tables -/

/-- An engine with its availability flag, which the engines of a snapshot all have set. -/
structure GpuEngine extends LsmProcessGpuEngine where
  timeAvailable : Bool
  deriving DecidableEq

structure LsmDrmMemoryRegion where
  name : Chars 96
  bytes : Nat
  residentPreferred : Bool
  deriving DecidableEq

structure LsmDrmClient where
  key : Chars 192 := .empty
  deviceKey : Chars 192 := .empty
  engines : List GpuEngine := []
  regions : List LsmDrmMemoryRegion := []
  memoryAvailable : Bool := false
  deriving DecidableEq

variable (lib : Library)

def mergeEngine (timeNs capacity : Nat) (haveTime : Bool) (engine : GpuEngine) : GpuEngine :=
  let timed : GpuEngine :=
    if haveTime then
      {engine with timeNs := lib.arithmetic.u64AddSaturating engine.timeNs timeNs, timeAvailable := true}
    else engine
  if timed.capacity < capacity then {timed with capacity := capacity} else timed

def newEngine (name : Text) (timeNs capacity : Nat) (haveTime : Bool) : GpuEngine :=
  {name := .ofText name, timeNs := timeNs, capacity := if 0 < capacity then capacity else 1, timeAvailable := haveTime}

/-- `none`: the call returned false. -/
def addEngine (engines : List GpuEngine) (name : Text) (timeNs capacity : Nat) (haveTime : Bool) :
    Option (List GpuEngine) :=
  if name = [] then none
  else Tally.add (·.name.text) maxEngines name (mergeEngine lib timeNs capacity haveTime)
    (newEngine name timeNs capacity haveTime) engines

def mergeRegion (bytes : Nat) (resident : Bool) (region : LsmDrmMemoryRegion) : LsmDrmMemoryRegion :=
  {region with
    bytes := if resident || !region.residentPreferred then bytes else region.bytes
    residentPreferred := region.residentPreferred || resident}

/-- `none`: the call returned false. -/
def setMemoryRegion (regions : List LsmDrmMemoryRegion) (name : Text) (bytes : Nat) (resident : Bool) :
    Option (List LsmDrmMemoryRegion) :=
  if name = [] then none
  else Tally.add (·.name.text) maxRegions name (mergeRegion bytes resident)
    {name := .ofText name, bytes := bytes, residentPreferred := resident} regions

/-! ### One file -/

/-- The text before and after the first colon. -/
def splitField (line : Text) : Option (Text × Text) :=
  match line.dropWhile (· != 58) with
  | [] => none
  | _ :: value => some (line.takeWhile (· != 58), value)

def fieldValue (line : Text) : Option Text := (splitField line).map fun field => lib.text.trim field.2

/-- What is known of a file after some of its lines. -/
structure ReadState where
  client : LsmDrmClient := {}
  driver : Chars 64 := .empty
  device : Chars 96 := .empty
  clientId : Option Nat := none
  recognised : Bool := false
  complete : Bool := true
  deriving DecidableEq

namespace ReadState
variable (s : ReadState)

def addEngine (name : Text) (timeNs capacity : Nat) (haveTime : Bool) : ReadState :=
  match Drm.addEngine lib s.client.engines name timeNs capacity haveTime with
  | some engines => {s with client := {s.client with engines := engines}}
  | none => {s with complete := false}

def setMemoryRegion (name : Text) (bytes : Nat) (resident : Bool) : ReadState :=
  match Drm.setMemoryRegion s.client.regions name bytes resident with
  | some regions => {s with client := {s.client with regions := regions}}
  | none => {s with complete := false}

end ReadState

/-- The body of the loop. -/
def readLine (s : ReadState) (line : Text) : ReadState :=
  if (ascii "drm-driver:").isPrefixOf line then
    match fieldValue lib line with
    | some value => {s with driver := .ofText value}
    | none => s
  else if (ascii "drm-pdev:").isPrefixOf line then
    match fieldValue lib line with
    | some value => {s with device := .ofText value}
    | none => s
  else if (ascii "drm-minor:").isPrefixOf line && s.device.text.isEmpty then
    match fieldValue lib line with
    | some value => {s with device := .ofText (ascii "minor-" ++ value)}
    | none => s
  else if (ascii "drm-client-id:").isPrefixOf line then
    {s with clientId := (fieldValue lib line).bind fun value => (lib.text.parseU64Token value).map (·.1)}
  else if (ascii "drm-engine-capacity-").isPrefixOf line then
    match splitField line with
    | none => s
    | some (key, value) =>
      match lib.text.parseU64Token value with
      | none => s
      | some (capacity, _) =>
        if capacity = 0 then s
        else s.addEngine lib (key.drop 20) 0 (if uintMax < capacity then uintMax else capacity) false
  else if (ascii "drm-engine-").isPrefixOf line then
    match splitField line with
    | none => s
    | some (key, value) =>
      match lib.text.parseU64Token value with
      | none => s
      | some (timeNs, _) => {s.addEngine lib (key.drop 11) timeNs 1 true with recognised := true}
  else if (ascii "drm-resident-").isPrefixOf line || (ascii "drm-memory-").isPrefixOf line then
    let resident := (ascii "drm-resident-").isPrefixOf line
    match splitField line with
    | none => s
    | some (key, value) =>
      match lib.parseBinaryQuantity (lib.text.trim value) with
      | none => s
      | some bytes =>
        let set := s.setMemoryRegion (key.drop (if resident then 13 else 11)) bytes resident
        {set with client := {set.client with memoryAvailable := true}, recognised := true}
  else s

/-- What reading an opened file gives; it failed when `ferror` or `fclose` says so. -/
structure FdFile where
  text : Text
  failed : Bool
  deriving DecidableEq

/-- The C strings of the buffer, cut at the newline. -/
def linesOf (text : Text) : List Text :=
  (Lines.buffersOf lineRoom text).map fun buffer => (Lines.cString buffer).takeWhile (· != 10)

structure ClientFile where
  recognised : Bool
  complete : Bool
  client : LsmDrmClient
  deriving DecidableEq

/-- `%s:%s` -/
def deviceText (driver device : Text) : Text := driver ++ 58 :: device

/-- `%s:%s:%llu` -/
def clientText (driver device : Text) (clientId : Nat) : Text := deviceText driver device ++ 58 :: Decimal.print clientId

/-- `none`: the file cannot be opened. -/
def readClientFile (path : Text) : Option FdFile → ClientFile
  | none => {recognised := false, complete := true, client := {}}
  | some file =>
    let s := (linesOf file.text).foldl (readLine lib) {}
    let complete := s.complete && !file.failed
    if !s.recognised then {recognised := false, complete := complete, client := s.client}
    else
      let key := match s.clientId with
        | some id => clientText s.driver.text s.device.text id
        | none => ascii "fd:" ++ (lib.pathBasename path).take 180
      {recognised := true, complete := complete, client :=
        {s.client with deviceKey := .ofText (deviceText s.driver.text s.device.text), key := .ofText key}}

/-! ### The directory -/

/-- A directory entry, and what `fopen` of its path gives. -/
structure FdEntry where
  name : Text
  file : Option FdFile
  deriving DecidableEq

/-- The entries in the order of `readdir`, and whether it and `closedir` went well. -/
structure Listing where
  entries : List FdEntry
  enumerated : Bool
  closed : Bool
  deriving DecidableEq

/-- `%.120s:%.120s` -/
def engineKey (deviceKey name : Text) : Text := deviceKey.take 120 ++ 58 :: name.take 120

/-- The engines of a client that have a time. -/
def publishEngines (deviceKey : Text) (engines : List GpuEngine) (published : List GpuEngine) : Option (List GpuEngine) :=
  engines.foldlM (fun published engine =>
    if !engine.timeAvailable then some published
    else addEngine lib published (engineKey deviceKey engine.name.text) engine.timeNs engine.capacity true) published

/-- What is accumulated over the entries. -/
structure Progress where
  seen : List (Chars 192) := []
  engines : List GpuEngine := []
  memoryBytes : Nat := 0
  memoryAvailable : Bool := false
  deriving DecidableEq

/-- `none`: incomplete, and the loop is left. -/
def readEntry (directory : Text) (p : Progress) (entry : FdEntry) : Option Progress :=
  if (lib.helpers.parseU64Range entry.name 0 intMax).isNone then some p
  else if 640 ≤ (lib.fullPath directory entry.name).length then some p
  else
    let read := readClientFile lib (lib.fullPath directory entry.name) entry.file
    if !read.complete then none
    else if !read.recognised then some p
    else if read.client.key ∈ p.seen then some p
    else if maxClients ≤ p.seen.length then none
    else
      match publishEngines lib read.client.deviceKey.text read.client.engines p.engines with
      | none => none
      | some engines => some {
          seen := p.seen ++ [read.client.key]
          engines := engines
          memoryBytes := read.client.regions.foldl
            (fun bytes region => lib.arithmetic.u64AddSaturating bytes region.bytes) p.memoryBytes
          memoryAvailable := p.memoryAvailable || read.client.memoryAvailable}

/-- What the loop does with a client. -/
def Progress.accept (p : Progress) (client : LsmDrmClient) : Option Progress :=
  if client.key ∈ p.seen then some p
  else if maxClients ≤ p.seen.length then none
  else
    match publishEngines lib client.deviceKey.text client.engines p.engines with
    | none => none
    | some engines => some {
        seen := p.seen ++ [client.key]
        engines := engines
        memoryBytes := client.regions.foldl
          (fun bytes region => lib.arithmetic.u64AddSaturating bytes region.bytes) p.memoryBytes
        memoryAvailable := p.memoryAvailable || client.memoryAvailable}

def fdinfoPath (procRoot : Text) (pid : Nat) : Text :=
  procRoot ++ 47 :: (Decimal.print pid ++ ascii "/fdinfo")

def snapshotOf (p : Progress) : LsmProcessGpuSnapshot where
  engines := p.engines.map (·.toLsmProcessGpuEngine)
  memoryBytes := p.memoryBytes
  engineCountersAvailable := decide (0 < p.engines.length)
  memoryAvailable := p.memoryAvailable

/-- The result, and the snapshot; the directories that open are given by their paths. -/
def lsmProcessGpuRead (directories : Text → Option Listing) (procRoot : Text) (pid : Nat)
    (snapshot : LsmProcessGpuSnapshot) : Bool × LsmProcessGpuSnapshot :=
  if procRoot = [] ∨ pid = 0 then (false, snapshot)
  else if 512 ≤ (fdinfoPath procRoot pid).length then (false, {})
  else
    match directories (fdinfoPath procRoot pid) with
    | none => (false, {})
    | some listing =>
      match listing.entries.foldlM (readEntry lib (fdinfoPath procRoot pid)) {} with
      | none => (false, {})
      | some p =>
        if !listing.enumerated || !listing.closed then (false, {})
        else ((snapshotOf p).engineCountersAvailable || (snapshotOf p).memoryAvailable, snapshotOf p)

end SystemMonitor.Process.Drm
