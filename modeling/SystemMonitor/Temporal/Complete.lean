import SystemMonitor.Temporal.Presentation

/-! A presentation is complete, or it is not available.

What was asked for is a list of parts (`Shown.parts`): the date, the clock and the zone,
each in the words of whoever the policy gives it to. On every way through the formatting
the buffer holds those parts whole or `N/A` (`epoch_allOr`), and the same holds of a
duration that an authority's policy drives (`duration_allOr`): `temporal_all_or_unavailable`. -/
namespace SystemMonitor.Temporal
open Lib Rendering

/-- Common's division by flooring, for instants before 1970 too. -/
theorem epochSecond_eq (unixMicroseconds : Int) : epochSecond unixMicroseconds = unixMicroseconds.fdiv 1000000 := by
  have hdiv : unixMicroseconds.fdiv 1000000 = unixMicroseconds / 1000000 := Int.fdiv_eq_ediv_of_nonneg _ (by decide)
  have htdiv := Int.tdiv_eq_ediv (a := unixMicroseconds) (b := 1000000)
  have htmod := Int.dvd_iff_tmod_eq_zero (a := 1000000) (b := unixMicroseconds)
  rw [hdiv, epochSecond, lsmMicrosecondsPerSecond]
  by_cases hnegative : unixMicroseconds < 0
  · by_cases hexact : unixMicroseconds.tmod 1000000 = 0
    · rw [if_neg fun h => h.2 hexact, htdiv, if_pos (Or.inr (htmod.mpr hexact)), Int.add_zero]
    · have hpart : ¬(0 ≤ unixMicroseconds ∨ (1000000 : Int) ∣ unixMicroseconds) := by
        rintro (h | h)
        · exact absurd hnegative (not_lt.mpr h)
        · exact hexact (htmod.mp h)
      rw [if_pos ⟨hnegative, hexact⟩, htdiv, if_neg hpart]
      exact Int.add_sub_cancel _ 1
  · rw [if_neg fun h => hnegative h.1, htdiv, if_pos (Or.inl (not_lt.mp hnegative)), Int.add_zero]

/-- What is asked of a presentation. -/
structure Shown where
  includeDate : Bool
  includeZone : Bool
  nativeShowSeconds : Bool

section
variable (system : System)

/-- The whole presentation is left to libc. -/
def System.native (shown : Shown) : Bool := system.standardClock && (!shown.includeDate || system.nativeCalendar)

def System.dateText (tm : Tm) : Text :=
  if system.nativeCalendar then system.conversion .date tm
  else system.dateProvider.elim [] fun provider => provider.complete (system.dateRequest tm)

def System.clockText (instant : Int) (tm : Tm) (shown : Shown) : Text :=
  if system.standardClock then system.conversion (clockConversion (system.showSeconds shown.nativeShowSeconds)) tm
  else (system.clockPresentation system.policy.clockMode).elim [] fun presentation =>
    presentation.complete (system.clockRequest instant tm.utcOffset)

def System.zoneText (tm : Tm) (shown : Shown) : Text :=
  if system.native shown then system.conversion .zone tm else exactUtcZone tm.utcOffset

/-- The date, the clock and the zone, as requested. -/
def Shown.parts (shown : Shown) (instant : Int) (tm : Tm) : List Text :=
  (if shown.includeDate then [system.dateText tm] else []) ++ system.clockText instant tm shown ::
    if shown.includeZone then [system.zoneText tm shown] else []

/-- The complete presentation of an instant, at its civil second. -/
def Shown.Complete (shown : Shown) (instant : Int) (text : Text) : Prop :=
  ∃ tm, system.localtime (instant.fdiv 1000000) = some tm ∧ text = Lines.join 32 (shown.parts system instant tm)

/-! ### Each way through the formatting -/

variable {capacity : Nat}

theorem strftime_spec (conversions : List Conversion) (size : Nat) (tm : Tm) (h : (strftime system conversions size tm).1 ≠ 0) :
    strftime system conversions size tm = ((system.render conversions tm).length, system.render conversions tm) := by
  unfold strftime at h ⊢
  dsimp only at h ⊢
  split
  next => rfl
  next hlong =>
    rw [if_neg hlong] at h
    exact absurd rfl h

/-- libc's output is committed whole or not at all. -/
theorem nativeCommit_strftime (conversions : List Conversion) (size : Nat) (tm : Tm) (buffer : Text) (capacity : Nat) :
    let formatted := strftime system conversions size tm
    nativeCommitFormatted formatted.2 formatted.1 buffer capacity = (false, buffer) ∨
      nativeCommitFormatted formatted.2 formatted.1 buffer capacity = commit (system.render conversions tm) buffer capacity := by
  intro formatted
  by_cases hlength : formatted.1 = 0
  · exact .inl (if_pos (.inl hlength))
  · have hspec := strftime_spec system conversions size tm hlength
    right
    show nativeCommitFormatted (strftime system conversions size tm).2 (strftime system conversions size tm).1 buffer capacity = _
    have hne : (system.render conversions tm).length ≠ 0 := by
      intro hzero
      apply hlength
      show (strftime system conversions size tm).1 = 0
      rw [hspec]
      exact hzero
    rw [hspec, nativeCommitFormatted, commit]
    by_cases hfits : (system.render conversions tm).length < capacity
    · rw [if_pos hfits, if_neg (by omega)]
    · rw [if_neg hfits, if_pos (by omega)]

theorem nativeFormat_allOr (tm : Tm) (shown : Shown) (showSeconds : Bool) :
    AllOr notAvailable capacity
      (· = system.render (nativeConversions shown.includeDate shown.includeZone showSeconds) tm)
      (nativeFormat system tm shown.includeDate shown.includeZone showSeconds (cut capacity notAvailable) capacity) := by
  unfold nativeFormat
  rcases nativeCommit_strftime system (nativeConversions shown.includeDate shown.includeZone showSeconds)
    lsmTemporalPresentationCapacity tm (cut capacity notAvailable) capacity with h | h
  · rw [h]
    exact allOr_refused
  · rw [h]
    exact allOr_commit rfl

theorem publishCombined_allOr (parts : List Text) :
    AllOr notAvailable capacity (· = Lines.join 32 parts)
      (publishCombined parts (cut capacity notAvailable) capacity) := by
  unfold publishCombined
  dsimp only
  by_cases hlong : lsmTemporalPresentationCapacity ≤ (Lines.join 32 parts).length ∨ capacity ≤ (Lines.join 32 parts).length
  · rw [snprintf, if_pos hlong]
    exact allOr_refused
  · obtain ⟨hprivate, hfits⟩ := not_or.mp hlong
    have hwhole : cut lsmTemporalPresentationCapacity (Lines.join 32 parts) = Lines.join 32 parts :=
      List.take_of_length_le (Nat.le_sub_one_of_lt (Nat.not_le.mp hprivate))
    rw [snprintf, if_neg hlong]
    dsimp only
    rw [hwhole]
    exact ⟨fun h => (nomatch h), fun _ => ⟨rfl, Nat.not_le.mp hfits⟩⟩

theorem formatExactUtcZone_spec {offset : Int} (h : (formatExactUtcZone offset zoneCapacity).1 = true) :
    (formatExactUtcZone offset zoneCapacity).2 = exactUtcZone offset :=
  List.take_of_length_le (Nat.le_sub_one_of_lt (of_decide_eq_true h))

/-- A presentation is put together of whole parts. -/
theorem combinePresentation_allOr (dateText : Option Text) (clockText : Text) (includeZone : Bool) (utcOffset : Int) :
    AllOr notAvailable capacity
      (· = Lines.join 32 (dateText.toList ++ clockText :: if includeZone then [exactUtcZone utcOffset] else []))
      (combinePresentation dateText clockText includeZone utcOffset (cut capacity notAvailable) capacity) := by
  unfold combinePresentation
  by_cases hempty : dateText = some []
  · rw [if_pos hempty]
    exact allOr_refused
  · rw [if_neg hempty]
    cases includeZone with
    | false => exact publishCombined_allOr _
    | true =>
      rw [if_pos rfl, if_pos rfl]
      dsimp only
      cases hzone : (formatExactUtcZone utcOffset zoneCapacity).1 with
      | false => exact allOr_refused
      | true =>
        rw [formatExactUtcZone_spec hzone]
        exact publishCombined_allOr _

/-- A date that is given is the whole date. -/
theorem nativeDateFormat_spec {tm : Tm} {buffer : Text} {size : Nat} (h : (nativeDateFormat system tm buffer size).1 = true) :
    (nativeDateFormat system tm buffer size).2 = system.conversion .date tm := by
  have hcommit := nativeCommit_strftime system [.date] dateCapacity tm buffer size
  have hdate : nativeDateFormat system tm buffer size = (false, buffer) ∨
      nativeDateFormat system tm buffer size = commit (system.conversion .date tm) buffer size := hcommit
  rcases hdate with hdate | hdate
  · rw [hdate] at h
    cases h
  · rw [hdate] at h ⊢
    unfold commit at h ⊢
    split at h
    next hfits => rw [if_pos hfits]
    next => cases h

theorem formatSelectedCalendar_spec {tm : Tm} {buffer : Text} {size : Nat}
    (h : (formatSelectedCalendar system tm buffer size).1 = true) :
    (formatSelectedCalendar system tm buffer size).2 =
      system.dateProvider.elim [] fun provider => provider.complete (system.dateRequest tm) := by
  unfold formatSelectedCalendar at h ⊢
  split at h
  next => cases h
  next hyear =>
    rw [if_neg hyear]
    cases hprovider : system.dateProvider with
    | none =>
      rw [hprovider] at h
      cases h
    | some provider =>
      rw [hprovider] at h
      exact provider.honest _ _ h

theorem formatSelectedClock_spec {instant utcOffset : Int} {buffer : Text} {size : Nat}
    (h : (formatSelectedClock system instant utcOffset buffer size).1 = true) :
    (formatSelectedClock system instant utcOffset buffer size).2 =
      (system.clockPresentation system.policy.clockMode).elim [] fun presentation =>
        presentation.complete (system.clockRequest instant utcOffset) := by
  unfold formatSelectedClock at h ⊢
  cases hpresentation : system.clockPresentation system.policy.clockMode with
  | none =>
    rw [hpresentation] at h
    cases h
  | some presentation =>
    rw [hpresentation] at h
    exact presentation.honest _ _ h

theorem presentationDate_spec {tm : Tm} {includeDate : Bool} (h : (presentationDate system tm includeDate).1 = true) :
    (if includeDate then some (presentationDate system tm includeDate).2 else none).toList =
      if includeDate then [system.dateText tm] else [] := by
  cases includeDate with
  | false => rfl
  | true =>
    unfold presentationDate System.dateText at *
    rw [if_pos rfl, if_pos rfl] at *
    cases hcalendar : system.nativeCalendar with
    | true =>
      rw [hcalendar, if_pos rfl] at h
      exact congrArg (fun t => [t]) (nativeDateFormat_spec system h)
    | false =>
      rw [hcalendar] at h
      exact congrArg (fun t => [t]) (formatSelectedCalendar_spec system h)

theorem presentationClock_spec {instant : Int} {tm : Tm} {shown : Shown}
    (h : (presentationClock system instant tm (system.showSeconds shown.nativeShowSeconds)).1 = true) :
    (presentationClock system instant tm (system.showSeconds shown.nativeShowSeconds)).2 = system.clockText instant tm shown := by
  unfold presentationClock System.clockText at *
  cases hclock : system.standardClock with
  | true =>
    rw [hclock, if_pos rfl] at h
    exact congrArg Prod.snd (strftime_spec system _ _ _ (bne_iff_ne.mp h))
  | false =>
    rw [hclock] at h
    exact formatSelectedClock_spec system h

/-! ### Instants -/

theorem render_native (tm : Tm) (instant : Int) (shown : Shown) (h : system.native shown = true) :
    system.render (nativeConversions shown.includeDate shown.includeZone (system.showSeconds shown.nativeShowSeconds)) tm =
      Lines.join 32 (shown.parts system instant tm) := by
  obtain ⟨hclock, hdate⟩ := Bool.and_eq_true_iff.mp h
  have hcalendar : shown.includeDate = true → system.nativeCalendar = true := by
    intro hinclude
    rw [hinclude] at hdate
    exact hdate
  unfold System.render nativeConversions Shown.parts System.clockText System.zoneText System.dateText
  rw [if_pos hclock, if_pos h]
  refine congrArg (Lines.join 32) ?_
  cases hinclude : shown.includeDate with
  | false => cases shown.includeZone <;> rfl
  | true =>
    rw [if_pos (hcalendar hinclude)]
    cases shown.includeZone <;> rfl

theorem epoch_allOr (instant : Int) (shown : Shown) :
    AllOr notAvailable capacity (shown.Complete system instant)
      (lsmTemporalFormatEpochMicroseconds system instant shown.includeDate shown.includeZone shown.nativeShowSeconds
        capacity) := by
  unfold lsmTemporalFormatEpochMicroseconds
  rw [epochSecond_eq]
  cases htm : system.localtime (instant.fdiv 1000000) with
  | none => exact allOr_refused
  | some tm =>
    dsimp only
    have hcomplete : ∀ text, text = Lines.join 32 (shown.parts system instant tm) → shown.Complete system instant text :=
      fun text htext => ⟨tm, htm, htext⟩
    change AllOr _ _ _ (if system.native shown = true then _ else _)
    by_cases hnative : system.native shown = true
    · rw [if_pos hnative]
      refine (nativeFormat_allOr system tm shown _).mono fun text htext => hcomplete text ?_
      rw [htext, render_native system tm instant shown hnative]
    · rw [if_neg hnative]
      cases hdate : (presentationDate system tm shown.includeDate).1 with
      | false => exact allOr_refused
      | true =>
        rw [Bool.not_true, if_neg Bool.false_ne_true]
        split
        next => exact allOr_refused
        next =>
          cases hclock : (presentationClock system instant tm (system.showSeconds shown.nativeShowSeconds)).1 with
          | false => exact allOr_refused
          | true =>
            rw [Bool.not_true, if_neg Bool.false_ne_true]
            refine (combinePresentation_allOr _ _ _ _).mono fun text htext => hcomplete text ?_
            rw [htext, presentationDate_spec system hdate, presentationClock_spec system hclock, Shown.parts,
              System.zoneText, if_neg hnative]

theorem epochSeconds_allOr (unixSeconds : Int) (shown : Shown) :
    AllOr notAvailable capacity (shown.Complete system (unixSeconds * 1000000))
      (lsmTemporalFormatEpochSeconds system unixSeconds shown.includeDate shown.includeZone shown.nativeShowSeconds
        capacity) := by
  unfold lsmTemporalFormatEpochSeconds i64Checked
  split
  next => exact allOr_refused
  next microseconds hchecked =>
    split at hchecked
    next =>
      cases hchecked
      exact epoch_allOr system _ shown
    next => cases hchecked

/-! ### Durations -/

theorem u64Checked_eq_some {n checked : Nat} (h : u64Checked n = some checked) : n = checked := by
  rw [u64Checked] at h
  split at h
  next => exact Option.some.inj h
  next => cases h

theorem duration_allOr (hauthority : system.authority = true) (elapsedSeconds : Nat) (anchor : LsmDurationAnchor)
    (compact : Bool) (hcapacity : 0 < capacity) :
    AllOr notAvailable capacity
      (· = system.durationMode.complete (system.durationRequest (elapsedSeconds * 1000000) anchor))
      (formatDurationSeconds system elapsedSeconds anchor compact capacity) := by
  unfold formatDurationSeconds
  rw [hauthority, Bool.not_true, if_neg Bool.false_ne_true]
  split
  next => exact allOr_refused
  next elapsedMicroseconds hchecked =>
    rw [u64Checked_eq_some hchecked]
    exact Formatter.allOr_orElse _ _ hcapacity

/-- **Complete or not available.** An instant, before 1970 too, is shown at its floored civil
second with every part that was asked for; a duration under an authority as the policy's
clock has it; or else the buffer holds `N/A`, cut to it. No time remaining is shown as `N/A`. -/
theorem temporal_all_or_unavailable (room : Nat) :
    (∀ instant (shown : Shown),
      AllOr notAvailable (room + 1) (shown.Complete system instant)
        (lsmTemporalFormatEpochMicroseconds system instant shown.includeDate shown.includeZone shown.nativeShowSeconds
          (room + 1)))
    ∧ (∀ second (shown : Shown),
      AllOr notAvailable (room + 1) (shown.Complete system (second * 1000000))
        (lsmTemporalFormatEpochSeconds system second shown.includeDate shown.includeZone shown.nativeShowSeconds (room + 1)))
    ∧ (system.authority = true → ∀ elapsedSeconds,
      AllOr notAvailable (room + 1)
        (· = system.durationMode.complete (system.durationRequest (elapsedSeconds * 1000000) .unanchored))
        (lsmTemporalFormatDurationSeconds system elapsedSeconds (room + 1))
      ∧ AllOr notAvailable (room + 1)
        (· = system.durationMode.complete (system.durationRequest (elapsedSeconds * 1000000) .endsNow))
        (lsmTemporalFormatElapsedSeconds system elapsedSeconds (room + 1))
      ∧ (elapsedSeconds ≠ 0 → AllOr notAvailable (room + 1)
        (· = system.durationMode.complete (system.durationRequest (elapsedSeconds * 1000000) .startsNow))
        (lsmTemporalFormatRemainingSeconds system elapsedSeconds (room + 1))))
    ∧ lsmTemporalFormatRemainingSeconds system 0 (room + 1) = (true, cut (room + 1) notAvailable) := by
  refine ⟨fun instant shown => epoch_allOr system instant shown, fun second shown => epochSeconds_allOr system second shown,
    fun hauthority elapsedSeconds => ⟨?_, ?_, fun hremaining => ?_⟩, rfl⟩
  · exact duration_allOr system hauthority elapsedSeconds .unanchored false room.succ_pos
  · exact duration_allOr system hauthority elapsedSeconds .endsNow false room.succ_pos
  · rw [lsmTemporalFormatRemainingSeconds, if_neg hremaining]
    exact duration_allOr system hauthority elapsedSeconds .startsNow true room.succ_pos

end

/-- A system with every policy native, and the zone of 1970's Greenwich. -/
def greenwich : System where
  localtime _ := some { year := 70, month := 0, day := 1, utcOffset := 0 }
  conversion
    | .date, _ => ascii "01/01/70"
    | .time, _ => ascii "00:00:00"
    | .hourMinute, _ => ascii "00:00"
    | .zone, _ => ascii "+0000"
  unspecified := []
  authority := true
  policy := { clockMode := ascii "standard", calendar := ascii "gregorian", showSeconds := true, locationConfigured := false,
              latitude := 0, longitude := 0 }
  clockPresentation _ := none
  dateProvider := none
  durationMode := .ofText fun request => Decimal.print (request.elapsedMicroseconds / 1000000)
  formatDurationCompact _ seconds capacity := cut capacity (Decimal.print seconds)
  formatDurationClock seconds capacity := cut capacity (Decimal.print seconds)
  realtime := some (0, 0)

example : (lsmTemporalFormatEpochSeconds greenwich 0 true true false 30).2 = ascii "01/01/70 00:00:00 +0000" := by decide

/-- The theorem's conditions at a minute and a half, under the native policy. -/
theorem temporal_at_greenwich :
    AllOr notAvailable 30 (· = ascii "90") (lsmTemporalFormatElapsedSeconds greenwich 90 30)
      ∧ AllOr notAvailable 30 (· = ascii "90") (lsmTemporalFormatRemainingSeconds greenwich 90 30) := by
  obtain ⟨-, helapsed, hremaining⟩ := (temporal_all_or_unavailable greenwich 29).2.2.1 rfl 90
  have hshown : ∀ anchor, greenwich.durationMode.complete (greenwich.durationRequest (90 * 1000000) anchor) = ascii "90" := by
    intro anchor
    cases anchor <;> decide
  rw [hshown] at helapsed
  have hremaining := hremaining (by decide)
  rw [hshown] at hremaining
  exact ⟨helapsed, hremaining⟩

/-- No time remaining, in a buffer of two: a part of `N/A` is reported as complete. -/
theorem remaining_zero_cut :
    ¬ ∀ (system : System) (elapsedSeconds room : Nat), system.authority = true →
      (lsmTemporalFormatRemainingSeconds system elapsedSeconds (room + 1)).1 = true →
      (lsmTemporalFormatRemainingSeconds system elapsedSeconds (room + 1)).2 =
          system.durationMode.complete (system.durationRequest (elapsedSeconds * 1000000) .startsNow)
        ∨ (lsmTemporalFormatRemainingSeconds system elapsedSeconds (room + 1)).2 = notAvailable := by
  intro hall
  rcases hall greenwich 0 1 rfl rfl with h | h
  · exact absurd (h.trans (show Decimal.print (0 * 1000000 / 1000000) = ascii "0" by decide)) (by decide)
  · exact absurd h (by decide)

end SystemMonitor.Temporal
