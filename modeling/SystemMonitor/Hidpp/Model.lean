import SystemMonitor.Common
import SystemMonitor.Lib.Machine

/-! Battery queries to a Logitech device over hidraw.

The worker, the device and everyone else who talks to the device take turns in
any order. The device answers its requests in order, each at most once, after any
delay; each report in the queue carries the request it answers, which the code
does not see. -/
namespace SystemMonitor.Hidpp
open Lib

abbrev Bytes := List UInt8

def byteAt (bytes : Bytes) (i : Nat) : UInt8 := bytes.getD i 0

def featureBatteryStatus : Nat := 0x1000
def featureUnifiedBattery : Nat := 0x1004
def functionGetStatus : UInt8 := 0x00
def functionUnifiedStatus : UInt8 := 0x10
def softwareId : UInt8 := 0x0c
def reportIdShort : UInt8 := 0x10
def reportIdLong : UInt8 := 0x11
def deviceDirect : UInt8 := 0xff
def errorFeature : UInt8 := 0xff

/-! ### The wire format -/

/-- A long report of twenty bytes. -/
def lsmLogitechHidppFormatRequest (featureIndex function : UInt8) (parameters : Bytes) : Option Bytes :=
  if 16 < parameters.length then none
  else some ([reportIdLong, deviceDirect, featureIndex, (function &&& 0xf0) ||| softwareId] ++ parameters ++
    List.replicate (16 - parameters.length) 0)

structure LsmHidppBatteryReading where
  percent : Option Nat := none
  nextPercent : Int := -1
  status : Text := []
  level : Text := []
  source : Text := []
  exactPercent : Bool := false
  nextPercentAvailable : Bool := false
  deriving DecidableEq

def levelFromPercent (percent : Nat) : Text :=
  if 100 ≤ percent then ascii "Full"
  else if 81 ≤ percent then ascii "High"
  else if 31 ≤ percent then ascii "Normal"
  else if 11 ≤ percent then ascii "Low"
  else ascii "Critical"

def batteryStatus (status : UInt8) : Text :=
  match status.toNat with
  | 0 => ascii "Discharging"
  | 1 | 2 => ascii "Charging"
  | 3 => ascii "Full"
  | 4 => ascii "Charging slowly"
  | 5 => ascii "Invalid battery"
  | 6 => ascii "Thermal error"
  | 7 => ascii "Charging error"
  | _ => ascii "Unknown"

def unifiedBatteryStatus (status : UInt8) : Text :=
  match status.toNat with
  | 0 => ascii "Charging"
  | 1 => ascii "Full"
  | 2 => ascii "Discharging"
  | 7 => ascii "Charging error"
  | _ => ascii "Unknown"

/-- A byte that is a percentage. -/
def percentage (b : UInt8) : Option Nat := if 0 < b ∧ b ≤ 100 then some b.toNat else none

def lsmLogitechHidppParse1000 (payload : Bytes) : Option LsmHidppBatteryReading :=
  if payload.length < 3 then none
  else
    let percent := percentage (byteAt payload 0)
    let next := percentage (byteAt payload 1)
    let status := byteAt payload 2
    some
      { percent
        nextPercent := match next with
          | some n => n
          | none => -1
        status := batteryStatus status
        level := match percent with
          | some p => levelFromPercent p
          | none => if status = 3 then ascii "Full" else []
        exactPercent := percent.isSome
        nextPercentAvailable := next.isSome }

def lsmLogitechHidppParse1004 (payload : Bytes) : Option LsmHidppBatteryReading :=
  if payload.length < 4 then none
  else
    let percent := percentage (byteAt payload 0)
    let levelBits := byteAt payload 1
    some
      { percent
        status := unifiedBatteryStatus (byteAt payload 2)
        level := match percent with
          | some p => levelFromPercent p
          | none =>
            if levelBits &&& 0x08 ≠ 0 then ascii "Full"
            else if levelBits &&& 0x04 ≠ 0 then ascii "Normal"
            else if levelBits &&& 0x02 ≠ 0 then ascii "Low"
            else if levelBits &&& 0x01 ≠ 0 then ascii "Critical"
            else []
        exactPercent := percent.isSome }

/-! ### The device and its other clients -/

/-- A request on its way, with a number of its own. -/
structure Sent where
  id : Nat
  report : Bytes
  deriving DecidableEq

/-- A report in the queue, and the request it answers. -/
structure Report where
  bytes : Bytes
  origin : Option Nat
  deriving DecidableEq

/-- The index of each feature, zero for those it does not have. -/
structure Device where
  features : Nat → UInt8

/-- A short or long report, directly from the device. -/
def Framed (bytes : Bytes) : Prop :=
  4 ≤ bytes.length ∧ (byteAt bytes 0 = reportIdShort ∨ byteAt bytes 0 = reportIdLong) ∧
    (byteAt bytes 1 = deviceDirect ∨ byteAt bytes 1 = 0x00)

instance (bytes : Bytes) : Decidable (Framed bytes) := inferInstanceAs (Decidable (_ ∧ _))

/-- The feature that a call of the root feature's first function asks for. -/
def askedFeature (report : Bytes) : Option Nat :=
  if byteAt report 2 = 0 ∧ byteAt report 3 &&& 0xf0 = 0 then
    some ((byteAt report 4).toNat * 256 + (byteAt report 5).toNat)
  else none

/-- What the device may answer to a request: its feature index and function
again, and from the root feature the index asked for; or an error. -/
def Answers (device : Device) (report bytes : Bytes) : Prop :=
  Framed bytes ∧
    ((byteAt bytes 2 = byteAt report 2 ∧ byteAt bytes 3 = byteAt report 3 ∧
        ∀ feature ∈ askedFeature report, ∀ index ∈ bytes[4]?, index = device.features feature) ∨
      (byteAt bytes 2 = errorFeature ∧ byteAt bytes 3 = byteAt report 2 ∧ byteAt bytes 4 = byteAt report 3 ∧
        6 ≤ bytes.length))

instance (device : Device) (report bytes : Bytes) : Decidable (Answers device report bytes) :=
  inferInstanceAs (Decidable (_ ∧ (_ ∨ _)))

/-- A report for a client with another software ID, or not of this protocol. -/
def Unrelated (bytes : Bytes) : Prop :=
  Framed bytes →
    if byteAt bytes 2 = errorFeature then byteAt bytes 4 &&& 0x0f ≠ softwareId
    else byteAt bytes 3 &&& 0x0f ≠ softwareId

instance (bytes : Bytes) : Decidable (Unrelated bytes) := inferInstanceAs (Decidable (_ → _))

/-! ### The calls of a query -/

/-- `*feature_id` and `*feature_index`. -/
structure Query where
  featureId : Nat := 0
  featureIndex : UInt8 := 0
  deriving DecidableEq

inductive Stage where
  | root (feature : Nat)
  | status
  deriving DecidableEq

/-- One `hidpp_request` of `query_device`. -/
structure Call where
  stage : Stage
  query : Query
  deriving DecidableEq

def Call.featureIndex (call : Call) : UInt8 :=
  match call.stage with
  | .root _ => 0x00
  | .status => call.query.featureIndex

def statusFunction (featureId : Nat) : UInt8 :=
  if featureId = featureUnifiedBattery then functionUnifiedStatus else functionGetStatus

def Call.function (call : Call) : UInt8 :=
  match call.stage with
  | .root _ => 0x00
  | .status => statusFunction call.query.featureId

def Call.parameters (call : Call) : Bytes :=
  match call.stage with
  | .root feature => [(feature / 256).toUInt8, (feature % 256).toUInt8]
  | .status => []

def Call.report (call : Call) : Bytes :=
  (lsmLogitechHidppFormatRequest call.featureIndex call.function call.parameters).getD []

/-- What `hidpp_request` makes of a report it has read. -/
inductive Match where
  | other
  | failed
  | accepted (payload : Bytes)
  deriving DecidableEq

def matchResponse (request response : Bytes) : Match :=
  if response.length < 4 then .other
  else if byteAt response 0 ≠ reportIdShort ∧ byteAt response 0 ≠ reportIdLong then .other
  else if byteAt response 1 ≠ deviceDirect ∧ byteAt response 1 ≠ 0x00 then .other
  else if byteAt response 2 = errorFeature ∧ byteAt response 3 = byteAt request 2 ∧ 6 ≤ response.length ∧
      byteAt response 4 = byteAt request 3 then .failed
  else if byteAt response 2 ≠ byteAt request 2 ∨ byteAt response 3 ≠ byteAt request 3 then .other
  else .accepted ((response.drop 4).take 16)

/-- `root_feature_index`, of what its request returned. -/
def rootFeatureIndex (payload : Option Bytes) : Option UInt8 :=
  match payload with
  | some (index :: _) => if index = 0 then none else some index
  | _ => none

/-- What `query_device` does next: another request, or it returns. -/
inductive Next where
  | call (call : Call)
  | done (query : Query) (reading : Option LsmHidppBatteryReading)

/-- The calls of a query that has been opened. -/
def queryDevice (query : Query) : Next :=
  if query.featureId = 0 then .call ⟨.root featureUnifiedBattery, query⟩
  else if query.featureId = featureUnifiedBattery ∨ query.featureId = featureBatteryStatus then .call ⟨.status, query⟩
  else .done query none

def decodeStatus (featureId : Nat) (payload : Bytes) : Option LsmHidppBatteryReading :=
  if featureId = featureUnifiedBattery then
    (lsmLogitechHidppParse1004 payload).map fun reading => {reading with source := ascii "Logitech HID++ 0x1004"}
  else (lsmLogitechHidppParse1000 payload).map fun reading => {reading with source := ascii "Logitech HID++ 0x1000"}

/-- After a request returned false, or true with a payload. -/
def afterRequest (call : Call) (payload : Option Bytes) : Next :=
  match call.stage with
  | .root feature =>
    match rootFeatureIndex payload with
    | some index => queryDevice ⟨feature, index⟩
    | none =>
      if feature = featureUnifiedBattery then .call ⟨.root featureBatteryStatus, call.query⟩ else .done call.query none
  | .status => .done call.query (payload.bind (decodeStatus call.query.featureId))

/-! ### The system -/

inductive Phase where
  | idle
  | draining (call : Call)
  | drained (call : Call)
  | waiting (call : Call) (id : Nat)
  deriving DecidableEq

/-- The slot of the device in the worker's table. -/
structure Slot where
  query : Query := {}
  reading : Option LsmHidppBatteryReading := none
  deriving DecidableEq

structure State where
  /-- The requests that the device has not answered, in order. -/
  outstanding : List Sent := []
  /-- The queue of the open descriptor. -/
  queue : List Report := []
  nextId : Nat := 0
  phase : Phase := .idle
  slot : Slot := {}
  deriving DecidableEq

inductive Action where
  | query (opened : Bool)
  | discard
  | drainEnd
  | write (ok : Bool)
  | read
  /-- A timeout, a cancellation, or an error of `poll`. -/
  | giveUp
  | answer (bytes : Bytes)
  | ignore
  | unrelated (bytes : Bytes)

/-- The descriptor is closed, and the worker keeps a query that succeeded. -/
def State.advance (s : State) : Next → State
  | .call call => {s with phase := .draining call}
  | .done query (some reading) => {s with phase := .idle, queue := [], slot := ⟨query, some reading⟩}
  | .done _ none => {s with phase := .idle, queue := [], slot := {s.slot with query := {}}}

/-- A report reaches the descriptor if one is open. -/
def State.deliver (s : State) (report : Report) : State :=
  if s.phase = .idle then s else {s with queue := s.queue ++ [report]}

def system (device : Device) : Machine State Action where
  step s
    | .query opened =>
      match s.phase with
      | .idle => some (if opened then s.advance (queryDevice s.slot.query) else s.advance (.done s.slot.query none))
      | _ => none
    | .discard =>
      match s.phase, s.queue with
      | .draining _, _ :: rest => some {s with queue := rest}
      | _, _ => none
    | .drainEnd =>
      match s.phase, s.queue with
      | .draining call, [] => some {s with phase := .drained call}
      | _, _ => none
    | .write ok =>
      match s.phase with
      | .drained call =>
        if ok then
          some
            { s with
              outstanding := s.outstanding ++ [⟨s.nextId, call.report⟩]
              nextId := s.nextId + 1
              phase := .waiting call s.nextId }
        else some (s.advance (afterRequest call none))
      | _ => none
    | .read =>
      match s.phase, s.queue with
      | .waiting call _, report :: rest =>
        match matchResponse call.report report.bytes with
        | .other => some {s with queue := rest}
        | .failed => some (State.advance {s with queue := rest} (afterRequest call none))
        | .accepted payload => some (State.advance {s with queue := rest} (afterRequest call (some payload)))
      | _, _ => none
    | .giveUp =>
      match s.phase with
      | .waiting call _ => some (s.advance (afterRequest call none))
      | _ => none
    | .answer bytes =>
      match s.outstanding with
      | sent :: rest =>
        if Answers device sent.report bytes then some (State.deliver {s with outstanding := rest} ⟨bytes, some sent.id⟩)
        else none
      | [] => none
    | .ignore =>
      match s.outstanding with
      | _ :: rest => some {s with outstanding := rest}
      | [] => none
    | .unrelated bytes => if Unrelated bytes then some (s.deliver ⟨bytes, none⟩) else none

inductive Event where
  /-- A payload accepted for a request, and the request it was sent in answer to. -/
  | accepted (id : Nat) (origin : Option Nat)
  /-- `root_feature_index` returned true. -/
  | found (feature : Nat) (index : UInt8)
  /-- A payload of this function of this feature index, decoded as that feature's. -/
  | decoded (featureId : Nat) (featureIndex function : UInt8)
  deriving DecidableEq

def callEvents (call : Call) (payload : Bytes) : List Event :=
  match call.stage with
  | .root feature => (rootFeatureIndex (some payload)).toList.map (.found feature)
  | .status => [.decoded call.query.featureId call.featureIndex call.function]

def events (s : State) : Action → List Event
  | .read =>
    match s.phase, s.queue with
    | .waiting call id, report :: _ =>
      match matchResponse call.report report.bytes with
      | .accepted payload => .accepted id report.origin :: callEvents call payload
      | _ => []
    | _, _ => []
  | _ => []

end SystemMonitor.Hidpp
