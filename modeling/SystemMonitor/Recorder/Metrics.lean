import SystemMonitor.Common
import SystemMonitor.Lib.FixedPoint
import SystemMonitor.Lib.Lines
import SystemMonitor.Recorder.Queue

/-! The rows of a recording, as they are written and read.

The writer prints a row with the C library and Common; the reader takes it apart at its
commas and checks every field before it stores anything. A finite `double` is a rational.
Common is not part of this repository and enters as a parameter (`Numerals`). -/
namespace SystemMonitor.Recorder
open Lib Lines

/-- `DBL_MAX`. -/
def dblMax : ℚ := ((2 ^ 53 - 1) * 2 ^ 971 : Nat)

/-- Common's numerals, with what the recorder relies on. -/
structure Numerals where
  /-- The value that three decimals show. -/
  threeDecimals : ℚ → ℚ
  /-- `infiltratr_format_fixed_ascii` with three decimals and 64 bytes; `none`: it failed. -/
  formatFixed : ℚ → Option Text
  parseU64 : Text → Option Nat
  parseDoubleRange : ℚ → ℚ → Text → Option ℚ
  threeDecimals_near : ∀ x, |threeDecimals x - x| ≤ 1 / 2000
  threeDecimals_mono : ∀ x y, x ≤ y → threeDecimals x ≤ threeDecimals y
  threeDecimals_int : ∀ n : Int, threeDecimals n = n
  formatFixed_text : ∀ x text, formatFixed x = some text →
    text ≠ [] ∧ text.length < 64 ∧ ∀ b ∈ text, b = 45 ∨ b = 46 ∨ Decimal.isDigit b = true
  format_parse : ∀ x text low high, formatFixed x = some text → low ≤ threeDecimals x → threeDecimals x ≤ high →
    parseDoubleRange low high text = some (threeDecimals x)
  parseDoubleRange_range : ∀ low high text x, parseDoubleRange low high text = some x → low ≤ x ∧ x ≤ high
  parseU64_eq : ∀ text, parseU64 text = (Decimal.parse text).filter (· ≤ uint64Max)

/-- The documented behaviour as functions. -/
def formatThree (x : ℚ) : Option Text :=
  let text := FixedPoint.print 3 (FixedPoint.units 3 x).toNat
  if 0 ≤ x ∧ text.length < 64 then some text else none

theorem formatThree_eq_some {x : ℚ} {text : Text} (h : formatThree x = some text) :
    0 ≤ x ∧ text.length < 64 ∧ text = FixedPoint.print 3 (FixedPoint.units 3 x).toNat := by
  rw [formatThree] at h
  split at h
  · rename_i hfits
    cases h
    exact ⟨hfits.1, hfits.2, rfl⟩
  · cases h

def Numerals.documented : Numerals where
  threeDecimals := FixedPoint.round 3
  formatFixed := formatThree
  parseU64 text := (Decimal.parse text).filter (· ≤ uint64Max)
  parseDoubleRange low high text := (FixedPoint.parse 3 text).filter fun x => low ≤ x ∧ x ≤ high
  threeDecimals_near x := by
    have hnear := FixedPoint.abs_round_sub 3 x
    norm_num at hnear ⊢
    exact hnear
  threeDecimals_mono _ _ := FixedPoint.round_mono 3
  threeDecimals_int := FixedPoint.round_int 3
  formatFixed_text x text h := by
    obtain ⟨-, hfits, rfl⟩ := formatThree_eq_some h
    exact ⟨by rw [FixedPoint.print]; simp, hfits, fun b hb => Or.inr (FixedPoint.mem_print hb)⟩
  format_parse x text low high h hlow hhigh := by
    obtain ⟨hpos, -, rfl⟩ := formatThree_eq_some h
    have hunits : 0 ≤ FixedPoint.units 3 x := Int.floor_nonneg.mpr (by positivity)
    have hvalue : (((FixedPoint.units 3 x).toNat : ℚ)) / 10 ^ 3 = FixedPoint.round 3 x := by
      rw [FixedPoint.round, ← Int.cast_natCast, Int.toNat_of_nonneg hunits]
    rw [FixedPoint.parse_print (by decide), hvalue]
    exact Option.filter_some_pos (decide_eq_true ⟨hlow, hhigh⟩)
  parseDoubleRange_range low high text x h := of_decide_eq_true (Option.filter_eq_some_iff.mp h).2
  parseU64_eq _ := rfl

variable (numerals : Numerals)

/-! ### Local times -/

/-- `year % 4U == 0U && (year % 100U != 0U || year % 400U == 0U)`. -/
def leap (year : Int) : Bool := year % 4 = 0 && (year % 100 ≠ 0 || year % 400 = 0)

/-- The Gregorian calendar. -/
def daysIn (year : Int) (month : Nat) : Nat :=
  match month with
  | 2 => if leap year then 29 else 28
  | 4 | 6 | 9 | 11 => 30
  | _ => 31

/-- A `struct tm` from `localtime_r`, with the year and the month as they are printed. -/
structure Tm where
  year : Int
  month : Nat
  day : Nat
  hour : Nat
  minute : Nat
  second : Nat
  /-- `tm_gmtoff`, in seconds. -/
  gmtoff : Int
  month_range : 1 ≤ month ∧ month ≤ 12
  day_range : 1 ≤ day ∧ day ≤ daysIn year month
  hour_lt : hour < 24
  minute_lt : minute < 60
  second_le : second ≤ 60

/-- `%z`: hours and minutes, without the seconds of the offset. -/
def zoneOffset (gmtoff : Int) : Text :=
  let minutes := gmtoff.natAbs / 60
  (if gmtoff < 0 then 45 else 43) :: Decimal.printPadded 4 (minutes / 60 * 100 + minutes % 60)

/-- `strftime` with `%Y-%m-%dT%H:%M:%S%z` and 64 bytes; `none`: it does not fit. -/
def strftime (tm : Tm) : Option Text :=
  let text := Decimal.printInt tm.year ++ 45 :: Decimal.printPadded 2 tm.month ++ 45 :: Decimal.printPadded 2 tm.day ++
    84 :: Decimal.printPadded 2 tm.hour ++ 58 :: Decimal.printPadded 2 tm.minute ++
    58 :: Decimal.printPadded 2 tm.second ++ zoneOffset tm.gmtoff
  if text.length < 64 then some text else none

/-- The row that is written for a node; `none`: the recording fails before it writes. -/
def writeRecord (localtime : Int → Option Tm) (node : RecordNode) : Option Text :=
  match localtime node.timestamp with
  | none => none
  | some tm =>
    match strftime tm with
    | none => none
    | some timestamp =>
      match numerals.formatFixed node.cpuPercent, numerals.formatFixed node.memoryPercent with
      | some cpuPercent, some memoryPercent =>
        some (join 44 [timestamp, Decimal.print node.pid, cpuPercent, memoryPercent, Decimal.print node.rssBytes,
          Decimal.print node.readBytes, Decimal.print node.writeBytes, Decimal.print node.threads] ++ [10])
      | _, _ => none

/-! ### The reader -/

def recorderCsvHeader : Text := ascii "timestamp,pid,cpu_percent,memory_percent,rss_bytes,read_bytes,write_bytes,threads"

def lsmProcessRecorderHeaderMatches (line : Text) : Bool :=
  recorderCsvHeader.isPrefixOf line &&
    (line.drop recorderCsvHeader.length == [10] || line.drop recorderCsvHeader.length == [13, 10])

/-- Two digits. -/
def recorderPair (text : Text) (i : Nat) : Option Nat :=
  match text[i]?, text[i + 1]? with
  | some tens, some ones =>
    if Decimal.isDigit tens && Decimal.isDigit ones then some (Decimal.ofByte tens * 10 + Decimal.ofByte ones) else none
  | _, _ => none

def monthDays : List Nat := [31, 28, 31, 30, 31, 30, 31, 31, 30, 31, 30, 31]

/-- The numbers of a timestamp in a calendar and on a clock. -/
def clockValid (year month day hour minute second zoneHour zoneMinute zoneSecond : Nat) : Bool :=
  if year = 0 ∨ month = 0 ∨ month > 12 ∨ hour > 23 ∨ minute > 59 ∨ second > 59 ∨ zoneHour > 23 ∨ zoneMinute > 59 ∨
      zoneSecond > 59 then
    false
  else
    let maximum := monthDays.getD (month - 1) 0 + if month = 2 && leap year then 1 else 0
    day > 0 && day ≤ maximum

/-- The seconds of the zone, when there are any. -/
def zoneSecondOf (text : Text) : Option Nat := if text.length = 26 then recorderPair text 24 else some 0

def recorderTimestampValid (text : Text) : Bool :=
  if (text.length ≠ 24 ∧ text.length ≠ 26) ∨ text[4]? ≠ some 45 ∨ text[7]? ≠ some 45 ∨ text[10]? ≠ some 84 ∨
      text[13]? ≠ some 58 ∨ text[16]? ≠ some 58 ∨ (text[19]? ≠ some 43 ∧ text[19]? ≠ some 45) then
    false
  else
    let valid : Option Bool := do
      let century ← recorderPair text 0
      let yearTail ← recorderPair text 2
      let month ← recorderPair text 5
      let day ← recorderPair text 8
      let hour ← recorderPair text 11
      let minute ← recorderPair text 14
      let second ← recorderPair text 17
      let zoneHour ← recorderPair text 20
      let zoneMinute ← recorderPair text 22
      let zoneSecond ← zoneSecondOf text
      return clockValid (century * 100 + yearTail) month day hour minute second zoneHour zoneMinute zoneSecond
    valid.getD false

/-- A line without its LF or CRLF; `none`: it has none. -/
def lineBody (line : Text) : Option Text :=
  if line.length < 2 ∨ line.getLast? ≠ some 10 then none
  else
    let body := line.dropLast
    some (if body.getLast? = some 13 then body.dropLast else body)

/-- The loop over the commas, and the field behind the last one, which has none. -/
def commaFields : Nat → Text → Option (List Text)
  | 0, cursor => if 44 ∈ cursor then none else some [cursor]
  | commas + 1, cursor =>
    match cursor.dropWhile (· != 44) with
    | [] => none
    | _ :: rest => (commaFields commas rest).map (cursor.takeWhile (· != 44) :: ·)

/-- Into a `char[64]`. -/
def recorderField (field : Text) : Option Text := if field = [] ∨ 64 ≤ field.length then none else some field

def integralFields : List Nat := [1, 4, 5, 6, 7]

def integralValid (column : Nat) (field : Text) : Bool :=
  match (recorderField field).bind numerals.parseU64 with
  | none => false
  | some value => !(column == 1 && value == 0) && !(column == 7 && decide (uintMax < value))

def metricValue (low high : ℚ) (field : Text) : Option ℚ :=
  (recorderField field).bind (numerals.parseDoubleRange low high)

/-- With what the caller's variables hold before the call, and after it. -/
def lsmProcessRecorderParseMetrics (line : Text) (outputs : ℚ × ℚ) : Bool × ℚ × ℚ :=
  match (lineBody line).bind (commaFields 7) with
  | none => (false, outputs)
  | some fields =>
    if !recorderTimestampValid (fields.getD 0 []) then (false, outputs)
    else if !integralFields.all fun column => integralValid numerals column (fields.getD column []) then
      (false, outputs)
    else
      match metricValue numerals 0 dblMax (fields.getD 2 []) with
      | none => (false, outputs)
      | some cpu =>
        match metricValue numerals 0 100 (fields.getD 3 []) with
        | none => (false, outputs)
        | some memory => (true, cpu, memory)

end SystemMonitor.Recorder
