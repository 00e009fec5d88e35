import SystemMonitor.Common
import SystemMonitor.Lib.Machine

/-! Bluetooth traffic: packets from the HCI monitor, counted by link.

A slot of the link table is keyed by controller and handle. The reader finds or
makes the slot of a packet's handle and adds the payload; a refresh marks the
controller's slots inactive and then finds or makes the slot of every handle the
kernel lists, binds it to its remote address and marks it active. Every such
operation holds the mutex for its whole table update and is one action. -/
namespace SystemMonitor.Bluetooth
open Lib

def lsmHciLinkSlots : Nat := 128
def lsmHciMaxConnections : Nat := 64

/-! ### Packets -/

structure LsmBluetoothMonitorPacket where
  controllerIndex : Nat
  handle : Nat
  payloadBytes : Nat
  receive : Bool
  deriving DecidableEq

/-- The bytes are there wherever it is called. -/
def loadLe16 (bytes : List UInt8) : Nat := (bytes.getD 0 0).toNat + 256 * (bytes.getD 1 0).toNat

/-- The size of the payload's own header, its data length and its direction. -/
def payloadHeader (opcode payloadLength : Nat) (payload : List UInt8) : Option (Nat × Nat × Bool) :=
  if opcode = 4 ∨ opcode = 5 then
    if payloadLength < 4 then none else some (4, loadLe16 (payload.drop 2), opcode = 5)
  else if opcode = 6 ∨ opcode = 7 then
    if payloadLength < 3 then none else some (3, (payload.getD 2 0).toNat, opcode = 7)
  else if opcode = 18 ∨ opcode = 19 then
    if payloadLength < 4 then none else some (4, loadLe16 (payload.drop 2) % 0x4000, opcode = 19)
  else none

def lsmBluetoothTrafficParseMonitor (buffer : List UInt8) : Option LsmBluetoothMonitorPacket :=
  if buffer.length < 6 then none
  else
    let payloadLength := loadLe16 (buffer.drop 4)
    if buffer.length - 6 < payloadLength then none
    else
      let payload := buffer.drop 6
      match payloadHeader (loadLe16 buffer) payloadLength payload with
      | none => none
      | some (headerSize, dataLength, receive) =>
        if payloadLength - headerSize < dataLength then none
        else some {
          controllerIndex := loadLe16 (buffer.drop 2)
          handle := loadLe16 payload % 0x1000
          payloadBytes := dataLength
          receive }

/-! ### Connections -/

/-- `bytes[0]` to `bytes[5]`. -/
abbrev LsmBluetoothAddress := Fin 6 → UInt8

structure LsmHciConnectionInfo where
  handle : Nat
  address : LsmBluetoothAddress

/-- What the kernel fills in: no more than it was given room for. -/
structure LsmHciConnectionList where
  connections : List LsmHciConnectionInfo
  fits : connections.length ≤ lsmHciMaxConnections

/-- `%02X`. -/
def hexByte (b : UInt8) : Text :=
  let digit (n : Nat) : UInt8 := (if n < 10 then 48 + n else 55 + n).toUInt8
  [digit (b.toNat / 16), digit (b.toNat % 16)]

def addressString (address : LsmBluetoothAddress) : Text :=
  List.intercalate [58] ([5, 4, 3, 2, 1, 0].map fun i => hexByte (address i))

/-! ### Links -/

structure LsmBluetoothLinkCounter where
  controllerIndex : Nat := 0
  handle : Nat := 0
  address : Text := []
  rxBytes : Nat := 0
  txBytes : Nat := 0
  active : Bool := false
  used : Bool := false
  deriving DecidableEq

namespace LsmBluetoothLinkCounter

def key (slot : LsmBluetoothLinkCounter) : Nat × Nat := (slot.controllerIndex, slot.handle)

/-- The slot counts for this controller and handle. -/
def keyed (slot : LsmBluetoothLinkCounter) (key : Nat × Nat) : Bool := slot.used && decide (slot.key = key)

end LsmBluetoothLinkCounter

/-- A slot just made. -/
def freshLink (key : Nat × Nat) : LsmBluetoothLinkCounter :=
  {controllerIndex := key.1, handle := key.2, used := true}

/-- The index of the slot, with the table it is in. -/
def linkForHandleLocked (links : List LsmBluetoothLinkCounter) (key : Nat × Nat) :
    Option (Nat × List LsmBluetoothLinkCounter) :=
  match links.findIdx? (·.keyed key) with
  | some i => some (i, links)
  | none =>
    match (links.findIdx? (!·.used)).or (links.findIdx? (!·.active)) with
    | some i => some (i, links.set i (freshLink key))
    | none => none

/-- What both callers do with the slot, if they get one. -/
def updateLink (links : List LsmBluetoothLinkCounter) (key : Nat × Nat)
    (f : LsmBluetoothLinkCounter → LsmBluetoothLinkCounter) : List LsmBluetoothLinkCounter :=
  match linkForHandleLocked links key with
  | none => links
  | some (i, links) => links.modify i f

section Common
variable (lib : Arithmetic) (text : TextHelpers)

def addPayload (packet : LsmBluetoothMonitorPacket) (slot : LsmBluetoothLinkCounter) : LsmBluetoothLinkCounter :=
  if packet.receive then {slot with rxBytes := lib.u64AddSaturating slot.rxBytes packet.payloadBytes}
  else {slot with txBytes := lib.u64AddSaturating slot.txBytes packet.payloadBytes}

def accountPacket (links : List LsmBluetoothLinkCounter) (packet : LsmBluetoothMonitorPacket) :
    List LsmBluetoothLinkCounter :=
  if packet.payloadBytes = 0 then links
  else updateLink links (packet.controllerIndex, packet.handle) (addPayload lib packet)

/-- Binding a slot to a remote address: another address resets the counters. -/
def bindLink (remote : Text) (slot : LsmBluetoothLinkCounter) : LsmBluetoothLinkCounter :=
  if slot.address ≠ [] ∧ text.asciiEqualCi slot.address remote = false then
    {slot with rxBytes := 0, txBytes := 0, address := remote, active := true}
  else {slot with address := remote, active := true}

def deactivate (index : Nat) (slot : LsmBluetoothLinkCounter) : LsmBluetoothLinkCounter :=
  if slot.used ∧ slot.controllerIndex = index then {slot with active := false} else slot

def bindConnection (index : Nat) (links : List LsmBluetoothLinkCounter) (info : LsmHciConnectionInfo) :
    List LsmBluetoothLinkCounter :=
  updateLink links (index, info.handle) (bindLink text (addressString info.address))

/-- The table update of a refresh. -/
def refreshLinks (links : List LsmBluetoothLinkCounter) (index : Nat) (list : LsmHciConnectionList) :
    List LsmBluetoothLinkCounter :=
  list.connections.foldl (bindConnection text index) (links.map (deactivate index))

/-- `hci`, and a decimal number. -/
def controllerIndex (controller : Text) : Option Nat :=
  if (ascii "hci").isPrefixOf controller ∧ controller.drop 3 ≠ [] then text.parseU64Range (controller.drop 3) 0 65535
  else none

structure LsmBluetoothTrafficCounters where
  rxBytes : Nat := 0
  txBytes : Nat := 0
  linkCount : Nat := 0
  deriving DecidableEq

def countLink (counters : LsmBluetoothTrafficCounters) (slot : LsmBluetoothLinkCounter) : LsmBluetoothTrafficCounters where
  rxBytes := lib.u64AddSaturating counters.rxBytes slot.rxBytes
  txBytes := lib.u64AddSaturating counters.txBytes slot.txBytes
  linkCount := if slot.active ∧ counters.linkCount < uintMax then counters.linkCount + 1 else counters.linkCount

/-- The slot counts for this device. -/
def LsmBluetoothLinkCounter.ofDevice (index : Nat) (address : Text) (slot : LsmBluetoothLinkCounter) : Bool :=
  slot.used && decide (slot.controllerIndex = index) && decide (slot.address ≠ []) &&
    text.asciiEqualCi slot.address address

structure LsmBluetoothCaptureState where
  captureAvailable : Bool
  links : List LsmBluetoothLinkCounter
  deriving DecidableEq

/-- The counters as they are left, if they are written, and what is returned. -/
def lsmBluetoothTrafficReadDevice (s : LsmBluetoothCaptureState) (controller address : Text) :
    Option LsmBluetoothTrafficCounters × Bool :=
  if address = [] then (none, false)
  else
    match controllerIndex text controller with
    | none => (some {}, false)
    | some index =>
      if !s.captureAvailable then (some {}, false)
      else
        let counters := (s.links.filter (·.ofDevice text index address)).foldl (countLink lib) {}
        (some counters, decide (0 < counters.linkCount))

/-! ### The machine -/

/-- A capture that `lsm_bluetooth_traffic_start` has begun. -/
def started : LsmBluetoothCaptureState := ⟨true, List.replicate lsmHciLinkSlots {}⟩

inductive Action where
  /-- The reader receives this. -/
  | receive (buffer : List UInt8)
  /-- The reader's socket fails, and it ends. -/
  | lose
  /-- With what the kernel answers, if it does. -/
  | refreshConnections (controller : Text) (list : Option LsmHciConnectionList)

def monitorReader (s : LsmBluetoothCaptureState) (buffer : List UInt8) : LsmBluetoothCaptureState :=
  match lsmBluetoothTrafficParseMonitor buffer with
  | none => s
  | some packet => {s with links := accountPacket lib s.links packet}

def lsmBluetoothTrafficRefreshConnections (s : LsmBluetoothCaptureState) (controller : Text)
    (list : Option LsmHciConnectionList) : LsmBluetoothCaptureState :=
  match controllerIndex text controller, list with
  | some index, some list => {s with links := refreshLinks text s.links index list}
  | _, _ => s

def step (s : LsmBluetoothCaptureState) : Action → Option LsmBluetoothCaptureState
  | .receive buffer => if s.captureAvailable then some (monitorReader lib s buffer) else none
  | .lose => if s.captureAvailable then some {s with captureAvailable := false} else none
  | .refreshConnections controller list => some (lsmBluetoothTrafficRefreshConnections text s controller list)

def machine : Machine LsmBluetoothCaptureState Action := ⟨step lib text⟩

end Common

end SystemMonitor.Bluetooth
