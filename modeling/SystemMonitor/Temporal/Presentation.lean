import SystemMonitor.History.Numerals
import SystemMonitor.Lib.Lines
import SystemMonitor.Lib.Rendering

/-! Civil times and durations as people read them.

An instant is resolved to the local civil second, and shown by libc where both the clock
and the calendar of the policy are native, or else put together from a date, a clock and an
exact offset, each of which a module of the system may fail to give. A duration is shown by
the policy's clock, or by Common where no authority sets a policy.

libc, the policy and Common's formatters are the parameter `System`. -/
namespace SystemMonitor.Temporal
open Lib Rendering

def lsmTemporalPresentationCapacity : Nat := 1024
/-- `INFILTRATR_TEMPORAL_DATE_CAPACITY`, and the size of `clock_text`. -/
def dateCapacity : Nat := 512
def clockCapacity : Nat := 256
def zoneCapacity : Nat := 24
def lsmMicrosecondsPerSecond : Int := 1000000

def notAvailable : Text := ascii "N/A"

/-- The fields of `struct tm` that are read here. -/
structure Tm where
  year : Int
  month : Int
  day : Int
  utcOffset : Int
  deriving DecidableEq

/-- The conversions of `strftime` that are used: `%x`, `%X`, `%H:%M` and `%z`. -/
inductive Conversion where
  | date
  | time
  | hourMinute
  | zone
  deriving DecidableEq

structure InfiltratrTemporalPolicyV3 where
  clockMode : Text
  calendar : Text
  showSeconds : Bool
  locationConfigured : Bool
  latitude : ℚ
  longitude : ℚ

structure ClockRequest where
  instant : Int
  utcOffset : Int
  showSeconds : Bool
  locationConfigured : Bool
  latitude : ℚ
  longitude : ℚ

structure DateRequest where
  calendar : Text
  year : Int
  month : Int
  day : Int

structure DurationRequest where
  clockMode : Text
  elapsedMicroseconds : Nat
  endUnixMicroseconds : Int
  showSeconds : Bool
  locationConfigured : Bool
  latitude : ℚ
  longitude : ℚ

/-- What the presentation finds around it. -/
structure System where
  localtime : Int → Option Tm
  conversion : Conversion → Tm → Text
  /-- What `strftime` leaves where the output does not fit. -/
  unspecified : Text
  authority : Bool
  policy : InfiltratrTemporalPolicyV3
  /-- The clock module of an identity, if it can be opened. -/
  clockPresentation : Text → Option (Formatter ClockRequest)
  dateProvider : Option (Formatter DateRequest)
  durationMode : Formatter DurationRequest
  formatDurationCompact : Bool → Nat → Nat → Text
  formatDurationClock : Nat → Nat → Text
  /-- `CLOCK_REALTIME`, in seconds and nanoseconds. -/
  realtime : Option (Int × Int)

/-- A result that an `int64_t` can hold. -/
def i64Checked (n : Int) : Option Int := if History.int64Min ≤ n ∧ n ≤ History.int64Max then some n else none

def u64Checked (n : Nat) : Option Nat := if n ≤ uint64Max then some n else none

/-! ### Parts of a presentation -/

section
variable (system : System)

def System.standardClock : Bool := !system.authority || system.policy.clockMode == ascii "standard"

def System.nativeCalendar : Bool := !system.authority || system.policy.calendar == ascii "gregorian"

def System.showSeconds (nativeShowSeconds : Bool) : Bool :=
  if system.authority then system.policy.showSeconds else nativeShowSeconds

/-- The conversions with a space between them. -/
def System.render (conversions : List Conversion) (tm : Tm) : Text :=
  Lines.join 32 (conversions.map fun c => system.conversion c tm)

/-- Zero where the output does not fit, its length else. -/
def strftime (conversions : List Conversion) (size : Nat) (tm : Tm) : Nat × Text :=
  let text := system.render conversions tm
  if text.length < size then (text.length, text) else (0, system.unspecified)

def nativeCommitFormatted (formatted : Text) (length : Nat) (buffer : Text) (capacity : Nat) : Outcome :=
  if length = 0 ∨ capacity ≤ length then (false, buffer) else (true, formatted)

def clockConversion (showSeconds : Bool) : Conversion := if showSeconds then .time else .hourMinute

def nativeConversions (includeDate includeZone showSeconds : Bool) : List Conversion :=
  (if includeDate then [.date] else []) ++ clockConversion showSeconds :: if includeZone then [.zone] else []

def nativeFormat (tm : Tm) (includeDate includeZone showSeconds : Bool) (buffer : Text) (capacity : Nat) : Outcome :=
  let formatted := strftime system (nativeConversions includeDate includeZone showSeconds) lsmTemporalPresentationCapacity tm
  nativeCommitFormatted formatted.2 formatted.1 buffer capacity

def nativeDateFormat (tm : Tm) (buffer : Text) (capacity : Nat) : Outcome :=
  let formatted := strftime system [.date] dateCapacity tm
  nativeCommitFormatted formatted.2 formatted.1 buffer capacity

def System.clockRequest (instant utcOffset : Int) : ClockRequest where
  instant
  utcOffset
  showSeconds := system.policy.showSeconds
  locationConfigured := system.policy.locationConfigured
  latitude := system.policy.latitude
  longitude := system.policy.longitude

def System.dateRequest (tm : Tm) : DateRequest where
  calendar := system.policy.calendar
  year := tm.year + 1900
  month := tm.month + 1
  day := tm.day

/-- The range of `int32_t`. -/
def fitsI32 (n : Int) : Bool := decide (-2 ^ 31 ≤ n ∧ n ≤ 2 ^ 31 - 1)

def formatSelectedClock (instant utcOffset : Int) (buffer : Text) (capacity : Nat) : Outcome :=
  match system.clockPresentation system.policy.clockMode with
  | none => (false, buffer)
  | some presentation => presentation.format (system.clockRequest instant utcOffset) capacity

def formatSelectedCalendar (tm : Tm) (buffer : Text) (capacity : Nat) : Outcome :=
  if !fitsI32 (tm.year + 1900) then (false, buffer)
  else match system.dateProvider with
    | none => (false, buffer)
    | some provider => provider.format (system.dateRequest tm) capacity

/-- `%02u` -/
def twoDigits (n : Nat) : Text := if n < 10 then 48 :: Decimal.print n else Decimal.print n

/-- The offset with its sign, to the second where it has any. -/
def exactUtcZone (offset : Int) : Text :=
  let magnitude := offset.natAbs
  (if offset < 0 then 45 else 43) :: (twoDigits (magnitude / 3600) ++ twoDigits (magnitude % 3600 / 60) ++
    if magnitude % 60 = 0 then [] else twoDigits (magnitude % 60))

/-- The length of the text, and as much of it as fits. -/
def snprintf (text : Text) (capacity : Nat) : Nat × Text := (text.length, cut capacity text)

def formatExactUtcZone (offset : Int) (capacity : Nat) : Outcome :=
  let written := snprintf (exactUtcZone offset) capacity
  (decide (written.1 < capacity), written.2)

/-- The parts are put together in a private buffer, and copied if they fit both. -/
def publishCombined (parts : List Text) (buffer : Text) (capacity : Nat) : Outcome :=
  let combined := snprintf (Lines.join 32 parts) lsmTemporalPresentationCapacity
  if lsmTemporalPresentationCapacity ≤ combined.1 ∨ capacity ≤ combined.1 then (false, buffer) else (true, combined.2)

def combinePresentation (dateText : Option Text) (clockText : Text) (includeZone : Bool) (utcOffset : Int)
    (buffer : Text) (capacity : Nat) : Outcome :=
  if dateText = some [] then (false, buffer)
  else if includeZone then
    let zone := formatExactUtcZone utcOffset zoneCapacity
    if !zone.1 then (false, buffer) else publishCombined (dateText.toList ++ [clockText, zone.2]) buffer capacity
  else publishCombined (dateText.toList ++ [clockText]) buffer capacity

/-! ### Instants -/

/-- Division towards zero, and one less where something negative is left. -/
def epochSecond (unixMicroseconds : Int) : Int :=
  let second := unixMicroseconds.tdiv lsmMicrosecondsPerSecond
  if unixMicroseconds < 0 ∧ unixMicroseconds.tmod lsmMicrosecondsPerSecond ≠ 0 then second - 1 else second

/-- `date_text`: libc's date for the native calendar, the selected module's else. -/
def presentationDate (tm : Tm) (includeDate : Bool) : Outcome :=
  if includeDate then
    if system.nativeCalendar then nativeDateFormat system tm system.unspecified dateCapacity
    else formatSelectedCalendar system tm system.unspecified dateCapacity
  else (true, system.unspecified)

/-- `clock_text`. -/
def presentationClock (unixMicroseconds : Int) (tm : Tm) (showSeconds : Bool) : Outcome :=
  if system.standardClock then
    let formatted := strftime system [clockConversion showSeconds] clockCapacity tm
    (formatted.1 != 0, formatted.2)
  else formatSelectedClock system unixMicroseconds tm.utcOffset system.unspecified clockCapacity

def lsmTemporalFormatEpochMicroseconds (unixMicroseconds : Int) (includeDate includeZone nativeShowSeconds : Bool)
    (capacity : Nat) : Outcome :=
  let buffer := cut capacity notAvailable
  match system.localtime (epochSecond unixMicroseconds) with
  | none => (false, buffer)
  | some tm =>
    let showSeconds := system.showSeconds nativeShowSeconds
    if system.standardClock && (!includeDate || system.nativeCalendar) then
      nativeFormat system tm includeDate includeZone showSeconds buffer capacity
    else
      let date := presentationDate system tm includeDate
      if !date.1 then (false, buffer)
      else if (!system.standardClock || includeZone) && !fitsI32 tm.utcOffset then (false, buffer)
      else
        let clock := presentationClock system unixMicroseconds tm showSeconds
        if !clock.1 then (false, buffer)
        else combinePresentation (if includeDate then some date.2 else none) clock.2 includeZone tm.utcOffset buffer capacity

def lsmTemporalFormatEpochSeconds (unixSeconds : Int) (includeDate includeZone nativeShowSeconds : Bool)
    (capacity : Nat) : Outcome :=
  match i64Checked (unixSeconds * lsmMicrosecondsPerSecond) with
  | none => (false, cut capacity notAvailable)
  | some microseconds =>
    lsmTemporalFormatEpochMicroseconds system microseconds includeDate includeZone nativeShowSeconds capacity

/-! ### Durations -/

inductive LsmDurationAnchor where
  | unanchored
  | endsNow
  | startsNow
  deriving DecidableEq

def realtimeMicroseconds : Option Int :=
  match system.realtime with
  | none => none
  | some (seconds, nanoseconds) =>
    match i64Checked (seconds * lsmMicrosecondsPerSecond) with
    | none => none
    | some secondsUs => i64Checked (secondsUs + nanoseconds.tdiv 1000)

/-- The civil end of an interval; `INT64_MIN` where there is none. -/
def endUnixMicroseconds (elapsedMicroseconds : Nat) (anchor : LsmDurationAnchor) : Int :=
  match anchor, realtimeMicroseconds system with
  | .unanchored, _ => History.int64Min
  | _, none => History.int64Min
  | .endsNow, some now => now
  | .startsNow, some now => (i64Checked elapsedMicroseconds).bind (fun e => i64Checked (now + e)) |>.getD History.int64Min

def System.durationRequest (elapsedMicroseconds : Nat) (anchor : LsmDurationAnchor) : DurationRequest where
  clockMode := system.policy.clockMode
  elapsedMicroseconds
  endUnixMicroseconds := endUnixMicroseconds system elapsedMicroseconds anchor
  showSeconds := system.policy.showSeconds
  locationConfigured := system.policy.locationConfigured
  latitude := system.policy.latitude
  longitude := system.policy.longitude

def formatDurationSeconds (elapsedSeconds : Nat) (anchor : LsmDurationAnchor) (compactNativeFallback : Bool)
    (capacity : Nat) : Outcome :=
  if !system.authority then
    let buffer := if compactNativeFallback then
      system.formatDurationCompact (elapsedSeconds != 0) elapsedSeconds capacity
    else system.formatDurationClock elapsedSeconds capacity
    (!buffer.isEmpty, buffer)
  else match u64Checked (elapsedSeconds * 1000000) with
    | none => (false, cut capacity notAvailable)
    | some elapsedMicroseconds =>
      orElse notAvailable capacity (system.durationMode.format (system.durationRequest elapsedMicroseconds anchor) capacity)

def lsmTemporalFormatDurationSeconds (elapsedSeconds capacity : Nat) : Outcome :=
  formatDurationSeconds system elapsedSeconds .unanchored false capacity

def lsmTemporalFormatElapsedSeconds (elapsedSeconds capacity : Nat) : Outcome :=
  formatDurationSeconds system elapsedSeconds .endsNow false capacity

def lsmTemporalFormatRemainingSeconds (elapsedSeconds capacity : Nat) : Outcome :=
  if elapsedSeconds = 0 then (true, cut capacity notAvailable)
  else formatDurationSeconds system elapsedSeconds .startsNow true capacity

end

end SystemMonitor.Temporal
