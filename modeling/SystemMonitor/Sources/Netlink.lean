import Mathlib.Data.List.TakeWhile
import SystemMonitor.Common
import SystemMonitor.Lib.Framing

/-! The rtnetlink side of the system sources: the dump of the links, and the
events that tell that they have changed.

Datagrams are arbitrary bytes. Every read goes through an offset into what was
received and is `none` outside it, as is a walk that does not end; the structures
are those of the Linux headers, in little-endian order. -/
namespace SystemMonitor.Sources
open Lib

def nlmsgError : Nat := 2
def nlmsgDone : Nat := 3
def nlmsgOverrun : Nat := 4
def rtmNewlink : Nat := 16
def rtmDellink : Nat := 17
def rtmNewaddr : Nat := 20
def rtmDeladdr : Nat := 21

/-- The bit of `NLM_F_DUMP_INTR`, and of `IFF_LOOPBACK`. -/
def nlmFDumpIntr : Nat := 4
def iffLoopback : Nat := 3

def iflaAddress : Nat := 1
def iflaIfname : Nat := 3
def iflaStats : Nat := 7
def iflaOperstate : Nat := 16
def iflaStats64 : Nat := 23
def ifOperUnknown : Nat := 0
def eoverflow : Nat := 75

/-- `struct nlmsghdr`: length, type, flags, sequence and port. -/
def messages : Framing where
  header := 16
  lengthSize := 4
  alignment := 4
  nonempty := by decide
  field := by decide
  aligned := by decide

/-- `struct rtattr`: length and type. -/
def attributes : Framing where
  header := 4
  lengthSize := 2
  alignment := 4
  nonempty := by decide
  field := by decide
  aligned := by decide

/-- The sizes of `struct rtnl_link_stats` and `rtnl_link_stats64`, to which
kernels have added fields at the end. -/
structure LinkStatistics where
  size : Nat
  size64 : Nat
  holds : 16 ≤ size
  holds64 : 32 ≤ size64

structure LsmRouteLink where
  name : Chars 64 := .empty
  mac : Text := []
  ifindex : Nat := 0
  rxBytes : Nat := 0
  txBytes : Nat := 0
  operstate : Nat := 0
  flags : Nat := 0
  countersAvailable : Bool := false
  counters64bit : Bool := false
  deriving DecidableEq

/-! ### Attributes -/

def hexDigit (n : Nat) : UInt8 := if n < 10 then (48 + n).toUInt8 else (87 + n).toUInt8

def hexByte (b : UInt8) : Text := [hexDigit (b.toNat / 16), hexDigit (b.toNat % 16)]

/-- Six bytes in hexadecimal, with colons. -/
def formatMac (bytes : List UInt8) : Text := List.intercalate [58] ((bytes.take 6).map hexByte)

/-- The C string at the start of bytes that hold a terminator. -/
def terminated (bytes : List UInt8) : Text := bytes.takeWhile fun b => decide (b ≠ 0)

theorem terminated_nulFree (bytes : List UInt8) : 0 ∉ terminated bytes := by
  intro h
  have hall := List.mem_takeWhile_imp h
  simp at hall

def applyRouteLinkAttribute (S : LinkStatistics) (bytes : List UInt8) (record : LsmRouteLink) (offset length : Nat) :
    Option LsmRouteLink :=
  (uintAt bytes (offset + 2) 2).bind fun type =>
  if type = iflaIfname then
    (bytesAt bytes (offset + 4) (length - 4)).map fun payload =>
      if 0 ∈ payload then {record with name := .copyString (terminated payload) (terminated_nulFree payload)}
      else record
  else if type = iflaAddress then
    if length - 4 < 6 then some record
    else (bytesAt bytes (offset + 4) 6).map fun address => {record with mac := formatMac address}
  else if type = iflaOperstate then
    if 1 ≤ length - 4 then (uintAt bytes (offset + 4) 1).map fun operstate => {record with operstate}
    else some record
  else if type = iflaStats64 then
    if S.size64 ≤ length - 4 then
      (bytesAt bytes (offset + 4) S.size64).map fun statistics =>
        { record with
          rxBytes := uintOf statistics 16 8
          txBytes := uintOf statistics 24 8
          countersAvailable := true
          counters64bit := true }
    else some record
  else if type = iflaStats then
    if !record.counters64bit && decide (S.size ≤ length - 4) then
      (bytesAt bytes (offset + 4) S.size).map fun statistics =>
        { record with
          rxBytes := uintOf statistics 8 4
          txBytes := uintOf statistics 12 4
          countersAvailable := true }
    else some record
  else some record

/-! ### The dump -/

structure LsmSystemSources where
  networkRequestFd : Int
  networkEventFd : Int
  networkSequence : Nat
  deriving DecidableEq

/-- What `recvmsg` returns: an error, which may be an interrupted call, or a
datagram, which may have been too long. -/
inductive Received where
  | failed (errno : Nat)
  | datagram (bytes : List UInt8) (truncated : Bool)

def eintr : Nat := 4
def eagain : Nat := 11

/-- The variables of the dump's loop. -/
structure Dump where
  records : List LsmRouteLink := []
  complete : Bool := false
  failed : Bool := false
  overflow : Bool := false
  deriving DecidableEq

/-- `record.ifindex`, of a signed integer. -/
def positiveIndex (index : Nat) : Nat := if index < 2 ^ 31 then index else 0

/-- An `RTM_NEWLINK` message that is long enough. -/
def routeLinkRecord (S : LinkStatistics) (capacity : Nat) (bytes : List UInt8) (d : Dump) (offset length : Nat) :
    Option (Dump × Bool) :=
  (uintAt bytes (offset + 24) 4).bind fun flags =>
  if flags.testBit iffLoopback then some (d, false)
  else
    (uintAt bytes (offset + 20) 4).bind fun index =>
    (attributes.walk bytes (fun record i n => (applyRouteLinkAttribute S bytes record i n).map fun r => (r, false))
      (length + 1) {ifindex := positiveIndex index, flags, operstate := ifOperUnknown} (offset + 32)
      ((length - 32 : Nat) : Int)).map fun walked =>
    if walked.2 ≠ 0 then ({d with failed := true}, true)
    else if walked.1.name.text = [] then (d, false)
    else if capacity ≤ d.records.length then ({d with overflow := true}, false)
    else ({d with records := d.records ++ [walked.1]}, false)

/-- The body of the loop over a datagram's messages; it may leave the loop. -/
def routeLinkMessage (S : LinkStatistics) (sequence capacity : Nat) (bytes : List UInt8) (d : Dump)
    (offset length : Nat) : Option (Dump × Bool) :=
  (uintAt bytes (offset + 8) 4).bind fun seq =>
  if seq ≠ sequence then some (d, false)
  else
    (uintAt bytes (offset + 6) 2).bind fun flags =>
    if flags.testBit nlmFDumpIntr then some ({d with failed := true}, true)
    else
      (uintAt bytes (offset + 4) 2).bind fun type =>
      if type = nlmsgDone then some ({d with complete := true}, true)
      else if type = nlmsgError then
        if length < 36 then some ({d with failed := true}, true)
        else (bytesAt bytes (offset + 16) 20).map fun error =>
          (if uintOf error 0 4 ≠ 0 then {d with failed := true} else d, false)
      else if type ≠ rtmNewlink ∨ length < 32 then some (d, false)
      else routeLinkRecord S capacity bytes d offset length

/-- The loop over datagrams. The socket has a timeout, so that the call fails
when no more come. -/
def routeLinkReceive (S : LinkStatistics) (sequence capacity : Nat) (d : Dump) : List Received → Option Dump
  | [] => some {d with failed := true}
  | .failed errno :: rest =>
    if errno = eintr then routeLinkReceive S sequence capacity d rest else some {d with failed := true}
  | .datagram bytes truncated :: rest =>
    if bytes = [] ∨ truncated = true then some {d with failed := true}
    else
      (messages.walk bytes (routeLinkMessage S sequence capacity bytes) (bytes.length + 1) d 0
        (bytes.length : Int)).bind fun walked =>
      let d := if !walked.1.complete && !walked.1.failed && decide (walked.2 ≠ 0) then {walked.1 with failed := true}
        else walked.1
      if d.complete || d.failed then some d else routeLinkReceive S sequence capacity d rest

/-- What the call returns, stores in `*out_count` and leaves in the array. -/
structure LinkDump where
  returned : Bool
  outCount : Nat := 0
  records : List LsmRouteLink := []
  errno : Option Nat := none
  deriving DecidableEq

def routeLinkDump (S : LinkStatistics) (sources : LsmSystemSources) (capacity : Nat) (sent : Bool)
    (received : List Received) : Option (LsmSystemSources × LinkDump) :=
  if capacity = 0 ∨ sources.networkRequestFd < 0 then some (sources, {returned := false})
  else
    let sequence := (sources.networkSequence + 1) % 2 ^ 32
    let requested := {sources with networkSequence := sequence}
    if !sent then some (requested, {returned := false})
    else
      (routeLinkReceive S sequence capacity {} received).map fun d =>
      if !d.complete || d.failed || d.overflow then
        (requested, {
          returned := false
          records := d.records
          errno := if d.overflow && !d.failed then some eoverflow else none })
      else (requested, {returned := true, outCount := d.records.length, records := d.records})

/-! ### Events -/

/-- The variables of the event loop; `returned` stands for a `return true` inside it. -/
structure EventScan where
  changed : Bool
  returned : Bool := false

def topologyMessage (bytes : List UInt8) (scan : EventScan) (offset _length : Nat) : Option (EventScan × Bool) :=
  (uintAt bytes (offset + 4) 2).map fun type =>
    if type = rtmNewlink ∨ type = rtmDellink ∨ type = rtmNewaddr ∨ type = rtmDeladdr then
      ({scan with changed := true}, false)
    else if type = nlmsgError ∨ type = nlmsgOverrun then ({scan with returned := true}, true)
    else (scan, false)

/-- What the non-blocking socket has queued; a wait would follow the last. -/
def topologyReceive (changed : Bool) : List Received → Option Bool
  | [] => some changed
  | .failed errno :: rest =>
    if errno = eintr then topologyReceive changed rest
    else if errno = eagain then some changed
    else some true
  | .datagram bytes truncated :: rest =>
    if bytes = [] then some changed
    else if truncated then some true
    else
      (messages.walk bytes (topologyMessage bytes) (bytes.length + 1) ⟨changed, false⟩ 0 (bytes.length : Int)).bind
        fun walked =>
      if walked.1.returned then some true
      else if walked.2 ≠ 0 then some true
      else topologyReceive walked.1.changed rest

def lsmSourcesNetworkTopologyChanged (sources : LsmSystemSources) (received : List Received) : Option Bool :=
  if sources.networkEventFd < 0 ∨ sources.networkRequestFd < 0 then some true else topologyReceive false received

end SystemMonitor.Sources
