import Mathlib.Tactic.IntervalCases
import SystemMonitor.Recorder.Metrics

/-! The timestamps of a recording.

The reader takes a timestamp apart at fixed places. What it accepts are the times of the
Gregorian calendar with a UTC offset in four or six digits (`recorderTimestampValid_iff`),
and what `strftime` prints is one of them unless the offset is a day or more
(`strftime_text`). -/
namespace SystemMonitor.Recorder
open Lib Decimal

/-- A time of the Gregorian calendar, in a year of four digits. -/
structure CivilTime where
  year : Nat
  month : Nat
  day : Nat
  hour : Nat
  minute : Nat
  second : Nat
  year_range : 1 ≤ year ∧ year ≤ 9999
  month_range : 1 ≤ month ∧ month ≤ 12
  day_range : 1 ≤ day ∧ day ≤ daysIn year month
  hour_lt : hour < 24
  minute_lt : minute < 60
  second_lt : second < 60

def CivilTime.text (t : CivilTime) : Text :=
  printFixed 4 t.year ++ 45 :: printFixed 2 t.month ++ 45 :: printFixed 2 t.day ++
    84 :: printFixed 2 t.hour ++ 58 :: printFixed 2 t.minute ++ 58 :: printFixed 2 t.second

/-- A UTC offset of less than a day; the seconds may be left out. -/
structure Zone where
  negative : Bool
  hour : Nat
  minute : Nat
  second : Option Nat
  hour_lt : hour < 24
  minute_lt : minute < 60
  second_lt : ∀ s ∈ second, s < 60

def Zone.text (z : Zone) : Text :=
  (if z.negative then 45 else 43) :: printFixed 2 z.hour ++ printFixed 2 z.minute ++
    (z.second.map (printFixed 2)).getD []

theorem drop_of_getElem? {text : Text} {i : Nat} {b : UInt8} (h : text[i]? = some b) :
    text.drop i = b :: text.drop (i + 1) := by
  obtain ⟨hlt, rfl⟩ := List.getElem?_eq_some_iff.mp h
  exact List.drop_eq_getElem_cons hlt

/-- A pair of digits is a number below a hundred, in two digits. -/
theorem recorderPair_eq_some {text : Text} {i n : Nat} :
    recorderPair text i = some n ↔ n < 100 ∧ text.drop i = printFixed 2 n ++ text.drop (i + 2) := by
  constructor
  · intro h
    rw [recorderPair] at h
    cases htens : text[i]? with
    | none =>
      rw [htens] at h
      cases h
    | some tens =>
      cases hones : text[i + 1]? with
      | none =>
        rw [htens, hones] at h
        cases h
      | some ones =>
        rw [htens, hones] at h
        dsimp only at h
        split at h
        · rename_i hdigits
          cases h
          obtain ⟨htensDigit, honesDigit⟩ := Bool.and_eq_true_iff.mp hdigits
          have htensLt := ofByte_lt htensDigit
          have honesLt := ofByte_lt honesDigit
          have hdiv : (ofByte tens * 10 + ofByte ones) / 10 % 10 = ofByte tens := by omega
          have hmod : (ofByte tens * 10 + ofByte ones) % 10 = ofByte ones := by omega
          refine ⟨by omega, ?_⟩
          rw [printFixed_two, hdiv, hmod, toByte_ofByte htensDigit, toByte_ofByte honesDigit,
            drop_of_getElem? htens, drop_of_getElem? hones]
          rfl
        · cases h
  · intro ⟨hlt, hdrop⟩
    have htens : text[i]? = some (toByte (n / 10 % 10)) := by
      rw [← Nat.add_zero i, ← List.getElem?_drop, hdrop]
      rfl
    have hones : text[i + 1]? = some (toByte (n % 10)) := by
      rw [← List.getElem?_drop, hdrop]
      rfl
    have hvalue : n / 10 % 10 * 10 + n % 10 = n := by omega
    rw [recorderPair, htens, hones]
    dsimp only
    rw [isDigit_toByte (Nat.mod_lt _ (by decide)), isDigit_toByte (Nat.mod_lt _ (by decide)),
      ofByte_toByte (Nat.mod_lt _ (by decide)), ofByte_toByte (Nat.mod_lt _ (by decide)), hvalue]
    rfl

theorem daysIn_le (year : Int) (month : Nat) : daysIn year month ≤ 31 := by
  unfold daysIn
  split
  · split <;> decide
  all_goals decide

/-- The table of the month lengths is the calendar's. -/
theorem monthDays_eq (year : Nat) {month : Nat} (h : 1 ≤ month ∧ month ≤ 12) :
    (monthDays.getD (month - 1) 0 + if month = 2 && leap year then 1 else 0) = daysIn year month := by
  obtain ⟨hlow, hhigh⟩ := h
  cases hleap : leap year <;> interval_cases month <;> simp [monthDays, daysIn, hleap]

theorem clockValid_iff {year month day hour minute second zoneHour zoneMinute zoneSecond : Nat} :
    clockValid year month day hour minute second zoneHour zoneMinute zoneSecond = true ↔
      1 ≤ year ∧ (1 ≤ month ∧ month ≤ 12) ∧ (1 ≤ day ∧ day ≤ daysIn year month) ∧ hour < 24 ∧ minute < 60 ∧
        second < 60 ∧ zoneHour < 24 ∧ zoneMinute < 60 ∧ zoneSecond < 60 := by
  rw [clockValid]
  split
  · rename_i hout
    exact iff_of_false (by decide) fun h => by omega
  · rename_i hin
    have hmonth : 1 ≤ month ∧ month ≤ 12 := by omega
    dsimp only
    rw [monthDays_eq year hmonth, Bool.and_eq_true, decide_eq_true_iff, decide_eq_true_iff]
    omega

/-- What is read of a timestamp, from its first byte on. -/
structure Layout (text : Text) (year month day hour minute second zoneHour zoneMinute zoneSecond : Nat) : Prop where
  length : text.length = 24 ∨ text.length = 26
  separators : text[4]? = some 45 ∧ text[7]? = some 45 ∧ text[10]? = some 84 ∧ text[13]? = some 58 ∧ text[16]? = some 58
  sign : text[19]? = some 43 ∨ text[19]? = some 45
  century : ∃ century yearTail, recorderPair text 0 = some century ∧ recorderPair text 2 = some yearTail ∧
    year = century * 100 + yearTail
  month : recorderPair text 5 = some month
  day : recorderPair text 8 = some day
  hour : recorderPair text 11 = some hour
  minute : recorderPair text 14 = some minute
  second : recorderPair text 17 = some second
  zoneHour : recorderPair text 20 = some zoneHour
  zoneMinute : recorderPair text 22 = some zoneMinute
  zoneSecond : zoneSecondOf text = some zoneSecond

theorem recorderTimestampValid_eq {text : Text} : recorderTimestampValid text = true ↔
    ∃ year month day hour minute second zoneHour zoneMinute zoneSecond,
      Layout text year month day hour minute second zoneHour zoneMinute zoneSecond ∧
        clockValid year month day hour minute second zoneHour zoneMinute zoneSecond = true := by
  rw [recorderTimestampValid]
  split
  · rename_i hout
    refine iff_of_false (by decide) fun ⟨_, _, _, _, _, _, _, _, _, hlayout, _⟩ => ?_
    have hlength := hlayout.length
    have hseparators := hlayout.separators
    have hsign := hlayout.sign
    tauto
  · rename_i hin
    simp only [not_or, not_and_or, not_not] at hin
    obtain ⟨hlength, h4, h7, h10, h13, h16, hsign⟩ := hin
    simp only [Option.getD_eq_iff, reduceCtorEq, and_false, or_false, Option.bind_eq_bind, Option.bind_eq_some_iff,
      Option.pure_def, Option.some_inj]
    constructor
    · intro ⟨century, hcentury, yearTail, htail, month, hmonth, day, hday, hour, hhour, minute, hminute, second,
        hsecond, zoneHour, hzoneHour, zoneMinute, hzoneMinute, zoneSecond, hzoneSecond, hvalid⟩
      exact ⟨_, month, day, hour, minute, second, zoneHour, zoneMinute, zoneSecond,
        ⟨hlength, ⟨h4, h7, h10, h13, h16⟩, hsign, ⟨century, yearTail, hcentury, htail, rfl⟩, hmonth, hday, hhour,
          hminute, hsecond, hzoneHour, hzoneMinute, hzoneSecond⟩, hvalid⟩
    · intro ⟨year, month, day, hour, minute, second, zoneHour, zoneMinute, zoneSecond, hlayout, hvalid⟩
      obtain ⟨century, yearTail, hcentury, htail, rfl⟩ := hlayout.century
      exact ⟨century, hcentury, yearTail, htail, month, hlayout.month, day, hlayout.day, hour, hlayout.hour, minute,
        hlayout.minute, second, hlayout.second, zoneHour, hlayout.zoneHour, zoneMinute, hlayout.zoneMinute,
        zoneSecond, hlayout.zoneSecond, hvalid⟩

theorem layout_text (t : CivilTime) (z : Zone) : Layout (t.text ++ z.text) t.year t.month t.day t.hour t.minute
    t.second z.hour z.minute (z.second.getD 0) := by
  have hyear : printFixed 4 t.year = printFixed 2 (t.year / 100) ++ printFixed 2 (t.year % 100) := by
    rw [← printFixed_four (Nat.mod_lt _ (by decide)), Nat.div_add_mod']
  have hcentury : t.year / 100 < 100 := Nat.div_lt_of_lt_mul (Nat.lt_succ_of_le t.year_range.2)
  have hmonth : t.month < 100 := Nat.lt_of_le_of_lt t.month_range.2 (by decide)
  have hday : t.day < 100 := by
    have hle := t.day_range.2.trans (daysIn_le t.year t.month)
    omega
  have hsign : some (if z.negative then 45 else 43) = some (43 : UInt8) ∨
      some (if z.negative then 45 else 43) = some (45 : UInt8) := by
    cases z.negative with
    | false => exact Or.inl rfl
    | true => exact Or.inr rfl
  have hhour := t.hour_lt
  have hminute := t.minute_lt
  have hsecond := t.second_lt
  have hzoneHour := z.hour_lt
  have hzoneMinute := z.minute_lt
  rw [CivilTime.text, Zone.text, hyear]
  simp only [printFixed_two, List.cons_append, List.nil_append]
  have htotal : t.year = t.year / 100 * 100 + t.year % 100 := (Nat.div_add_mod' t.year 100).symm
  refine ⟨?_, ⟨rfl, rfl, rfl, rfl, rfl⟩, hsign, ⟨t.year / 100, t.year % 100, ?_, ?_, htotal⟩,
    ?_, ?_, ?_, ?_, ?_, ?_, ?_, ?_⟩
  · cases z.second with
    | none => exact Or.inl rfl
    | some s => exact Or.inr rfl
  · exact recorderPair_eq_some.mpr ⟨hcentury, rfl⟩
  · exact recorderPair_eq_some.mpr ⟨Nat.mod_lt _ (by decide), rfl⟩
  · exact recorderPair_eq_some.mpr ⟨hmonth, rfl⟩
  · exact recorderPair_eq_some.mpr ⟨hday, rfl⟩
  · exact recorderPair_eq_some.mpr ⟨by omega, rfl⟩
  · exact recorderPair_eq_some.mpr ⟨by omega, rfl⟩
  · exact recorderPair_eq_some.mpr ⟨by omega, rfl⟩
  · exact recorderPair_eq_some.mpr ⟨by omega, rfl⟩
  · exact recorderPair_eq_some.mpr ⟨by omega, rfl⟩
  · cases hzoneSecond : z.second with
    | none => rfl
    | some s =>
      have hlt : s < 100 := (z.second_lt s hzoneSecond).trans (by decide)
      exact (if_pos rfl).trans (recorderPair_eq_some.mpr ⟨hlt, rfl⟩)

/-- **The timestamps that are accepted are those of the calendar, with a numeric zone.** -/
theorem recorderTimestampValid_iff {text : Text} :
    recorderTimestampValid text = true ↔ ∃ (t : CivilTime) (z : Zone), text = t.text ++ z.text := by
  rw [recorderTimestampValid_eq]
  constructor
  · intro ⟨year, month, day, hour, minute, second, zoneHour, zoneMinute, zoneSecond, hlayout, hvalid⟩
    obtain ⟨hyear, hmonthRange, hdayRange, hhourLt, hminuteLt, hsecondLt, hzoneHourLt, hzoneMinuteLt, hzoneSecondLt⟩ :=
      clockValid_iff.mp hvalid
    obtain ⟨century, yearTail, hcentury, htail, rfl⟩ := hlayout.century
    obtain ⟨hcenturyLt, h0⟩ := recorderPair_eq_some.mp hcentury
    obtain ⟨htailLt, h2⟩ := recorderPair_eq_some.mp htail
    obtain ⟨h4, h7, h10, h13, h16⟩ := hlayout.separators
    obtain ⟨-, h5⟩ := recorderPair_eq_some.mp hlayout.month
    obtain ⟨-, h8⟩ := recorderPair_eq_some.mp hlayout.day
    obtain ⟨-, h11⟩ := recorderPair_eq_some.mp hlayout.hour
    obtain ⟨-, h14⟩ := recorderPair_eq_some.mp hlayout.minute
    obtain ⟨-, h17⟩ := recorderPair_eq_some.mp hlayout.second
    obtain ⟨-, h20⟩ := recorderPair_eq_some.mp hlayout.zoneHour
    obtain ⟨-, h22⟩ := recorderPair_eq_some.mp hlayout.zoneMinute
    have hsign : ∃ negative : Bool, text[19]? = some (if negative then 45 else 43) := by
      rcases hlayout.sign with hplus | hminus
      · exact ⟨false, hplus⟩
      · exact ⟨true, hminus⟩
    obtain ⟨negative, h19⟩ := hsign
    have hrest : ∃ seconds : Option Nat, (∀ s ∈ seconds, s < 60) ∧
        text.drop 24 = (seconds.map (printFixed 2)).getD [] := by
      rcases hlayout.length with hlength | hlength
      · exact ⟨none, nofun, List.drop_eq_nil_of_le (Nat.le_of_eq hlength)⟩
      · have hpair := hlayout.zoneSecond
        rw [zoneSecondOf, if_pos hlength] at hpair
        obtain ⟨-, h24⟩ := recorderPair_eq_some.mp hpair
        rw [List.drop_eq_nil_of_le (Nat.le_of_eq hlength), List.append_nil] at h24
        exact ⟨some zoneSecond, fun s hs => Option.some.inj hs ▸ hzoneSecondLt, h24⟩
    obtain ⟨seconds, hseconds, h24⟩ := hrest
    refine ⟨⟨century * 100 + yearTail, month, day, hour, minute, second, ⟨hyear, by omega⟩, hmonthRange, hdayRange,
      hhourLt, hminuteLt, hsecondLt⟩,
      ⟨negative, zoneHour, zoneMinute, seconds, hzoneHourLt, hzoneMinuteLt, hseconds⟩, ?_⟩
    rw [CivilTime.text, Zone.text, printFixed_four htailLt, ← h24]
    simp only [List.append_assoc, List.cons_append]
    calc text = text.drop 0 := rfl
      _ = _ := by
        rw [h0, h2, drop_of_getElem? h4, h5, drop_of_getElem? h7, h8, drop_of_getElem? h10, h11, drop_of_getElem? h13,
          h14, drop_of_getElem? h16, h17, drop_of_getElem? h19, h20, h22]
  · intro ⟨t, z, htext⟩
    subst htext
    have hzone : z.second.getD 0 < 60 := by
      cases hsecond : z.second with
      | none => decide
      | some s => exact z.second_lt s hsecond
    exact ⟨_, _, _, _, _, _, _, _, _, layout_text t z, clockValid_iff.mpr ⟨t.year_range.1, t.month_range, t.day_range,
      t.hour_lt, t.minute_lt, t.second_lt, z.hour_lt, z.minute_lt, hzone⟩⟩

/-! ### What is printed -/

/-- A local time in a year of four digits, less than a day from UTC. -/
structure Presentable (tm : Tm) : Prop where
  year : 1000 ≤ tm.year ∧ tm.year ≤ 9999
  second : tm.second ≤ 59
  offset : tm.gmtoff.natAbs < 86400

theorem strftime_text {tm : Tm} (h : Presentable tm) :
    ∃ (t : CivilTime) (z : Zone), strftime tm = some (t.text ++ z.text) := by
  obtain ⟨year, hyear⟩ := Int.eq_ofNat_of_zero_le (a := tm.year) (by have := h.year; omega)
  have hrange : 10 ^ 3 ≤ year ∧ year < 10 ^ 4 := by
    have := h.year
    omega
  have hminutes : tm.gmtoff.natAbs / 60 / 60 < 24 := by
    have := h.offset
    omega
  have hsecond := h.second
  have hmonth := tm.month_range
  have hday := tm.day_range
  have hdayLe := daysIn_le tm.year tm.month
  have hhour := tm.hour_lt
  have hminute := tm.minute_lt
  have hpadded : ∀ n < 100, printPadded 2 n = printFixed 2 n := fun n hn => printPadded_eq (by decide) hn
  have hzone : printPadded 4 (tm.gmtoff.natAbs / 60 / 60 * 100 + tm.gmtoff.natAbs / 60 % 60) =
      printFixed 2 (tm.gmtoff.natAbs / 60 / 60) ++ printFixed 2 (tm.gmtoff.natAbs / 60 % 60) := by
    rw [printPadded_eq (by decide) (by omega), printFixed_four (by omega)]
  refine ⟨⟨year, tm.month, tm.day, tm.hour, tm.minute, tm.second, by omega, hmonth, hyear ▸ hday, hhour, hminute,
    by omega⟩, ⟨decide (tm.gmtoff < 0), tm.gmtoff.natAbs / 60 / 60, tm.gmtoff.natAbs / 60 % 60, none, hminutes,
    Nat.mod_lt _ (by decide), nofun⟩, ?_⟩
  have hprint : printInt tm.year = printFixed 4 year := by
    rw [hyear]
    exact print_eq_printFixed hrange.1 hrange.2
  have hsign : (if tm.gmtoff < 0 then 45 else 43 : UInt8) = if decide (tm.gmtoff < 0) then 45 else 43 := by
    by_cases hneg : tm.gmtoff < 0 <;> simp [hneg]
  rw [strftime, zoneOffset, hprint, hpadded _ (by omega), hpadded _ (by omega), hpadded _ (by omega),
    hpadded _ (by omega), hpadded _ (by omega)]
  rw [hzone, hsign, CivilTime.text, Zone.text, Option.map_none, Option.getD_none, List.append_nil]
  exact if_pos (by decide : 24 < 64)

end SystemMonitor.Recorder
