import Mathlib.Algebra.Order.Field.Rat
import Mathlib.Data.List.Induction
import Mathlib.Tactic.FieldSimp
import Mathlib.Tactic.Linarith
import Mathlib.Tactic.Ring

/-! A counter that is read at some ticks of a clock, and shown as a rate.

The meter keeps what it read last. On the next reading it divides the difference by the
time since the last *tick*. That is the rate between the two readings exactly where the
last tick was read or nothing has moved (`fromReadings_iff`). -/
namespace SystemMonitor.Lib.Meter

/-- `elapsed` is the time since the tick before; `reading` is `none` where the counter could not be read. -/
structure Tick (R : Type) where
  elapsed : ℚ
  reading : Option R

variable {R : Type} {difference : R → R → Option ℚ}

/-- The rate that is shown, with what is kept. -/
def step (difference : R → R → Option ℚ) (kept : Option R) (tick : Tick R) : Option ℚ × Option R :=
  match tick.reading with
  | none => (none, kept)
  | some reading => ((kept.bind (difference reading)).map (· / tick.elapsed), some reading)

/-- What is kept after some ticks. -/
def kept (ticks : List (Tick R)) : Option R :=
  ticks.foldl (fun kept tick => tick.reading.or kept) none

theorem kept_concat (ticks : List (Tick R)) (tick : Tick R) : kept (ticks ++ [tick]) = tick.reading.or (kept ticks) := by
  rw [kept, List.foldl_concat]
  rfl

theorem step_kept (kept : Option R) (tick : Tick R) : (step difference kept tick).2 = tick.reading.or kept := by
  rw [step]
  cases tick.reading <;> rfl

/-- The last reading, with the time that has gone by since. -/
def lastReading (ticks : List (Tick R)) : Option (ℚ × R) :=
  ticks.foldl (fun last tick =>
    match tick.reading with
    | none => last.map fun (age, reading) => (age + tick.elapsed, reading)
    | some reading => some (0, reading)) none

theorem lastReading_concat (ticks : List (Tick R)) (tick : Tick R) :
    lastReading (ticks ++ [tick]) =
      match tick.reading with
      | none => (lastReading ticks).map fun (age, reading) => (age + tick.elapsed, reading)
      | some reading => some (0, reading) := by
  rw [lastReading, List.foldl_concat]
  rfl

/-- The last tick was read. -/
def Fresh (ticks : List (Tick R)) : Prop := ∃ tick ∈ ticks.getLast?, tick.reading.isSome = true

/-- The rate is the difference of this reading and the last one, over the time between the two. -/
def FromReadings (difference : R → R → Option ℚ) (ticks : List (Tick R)) (tick : Tick R) (rate : ℚ) : Prop :=
  ∃ age earlier later amount, lastReading ticks = some (age, earlier) ∧ tick.reading = some later ∧
    difference later earlier = some amount ∧ rate = amount / (age + tick.elapsed)

theorem kept_eq (ticks : List (Tick R)) : kept ticks = (lastReading ticks).map (·.2) := by
  induction ticks using List.reverseRecOn with
  | nil => rfl
  | append_singleton ticks tick ih =>
    rw [kept_concat, lastReading_concat, ih]
    cases tick.reading with
    | none => rw [Option.none_or, Option.map_map]; rfl
    | some reading => rfl

/-- Time has gone by since the last reading where the last tick was not read. -/
theorem age_of_lastReading {ticks : List (Tick R)} (hpositive : ∀ tick ∈ ticks, 0 < tick.elapsed) {age : ℚ} {reading : R}
    (h : lastReading ticks = some (age, reading)) : 0 ≤ age ∧ (age = 0 ↔ Fresh ticks) := by
  induction ticks using List.reverseRecOn generalizing age with
  | nil => exact nomatch h
  | append_singleton ticks tick ih =>
    rw [lastReading_concat] at h
    rw [Fresh, List.getLast?_concat]
    have hearlier : ∀ tick ∈ ticks, 0 < tick.elapsed := fun tick hmem => hpositive tick (List.mem_append_left _ hmem)
    have helapsed : 0 < tick.elapsed := hpositive tick (List.mem_append_right _ (List.mem_singleton_self tick))
    cases hread : tick.reading with
    | none =>
      rw [hread] at h
      obtain ⟨⟨age', reading'⟩, hlast, heq⟩ := Option.map_eq_some_iff.mp h
      obtain ⟨rfl, rfl⟩ := Prod.mk.inj heq
      have hage := (ih hearlier hlast).1
      refine ⟨by linarith, fun hzero => absurd hzero (by linarith), ?_⟩
      intro ⟨tick', htick', hsome⟩
      obtain rfl := Option.some.inj htick'
      rw [hread] at hsome
      exact nomatch hsome
    | some reading' =>
      rw [hread] at h
      obtain ⟨rfl, rfl⟩ := Prod.mk.inj (Option.some.inj h)
      exact ⟨le_rfl, iff_of_true rfl ⟨tick, rfl, by rw [hread]; rfl⟩⟩

theorem step_rate {keptReading : Option R} {tick : Tick R} {rate : ℚ} :
    (step difference keptReading tick).1 = some rate ↔
      ∃ earlier later amount, keptReading = some earlier ∧ tick.reading = some later ∧
        difference later earlier = some amount ∧ rate = amount / tick.elapsed := by
  rw [step]
  cases tick.reading with
  | none => exact ⟨fun h => (nomatch h), fun ⟨_, _, _, _, h, _⟩ => nomatch h⟩
  | some later =>
    constructor
    · intro h
      obtain ⟨amount, hamount, hrate⟩ := Option.map_eq_some_iff.mp h
      obtain ⟨earlier, hearlier, hdifference⟩ := Option.bind_eq_some_iff.mp hamount
      exact ⟨earlier, later, amount, hearlier, rfl, hdifference, hrate.symm⟩
    · intro ⟨earlier, later', amount, hearlier, hlater, hdifference, hrate⟩
      obtain rfl := Option.some.inj hlater
      refine Option.map_eq_some_iff.mpr ⟨amount, ?_, hrate.symm⟩
      rw [hearlier, Option.bind_some, hdifference]

/-- Where a difference can be shown, the last tick was read, or the difference is zero. -/
def Steady (difference : R → R → Option ℚ) (ticks : List (Tick R)) (tick : Tick R) : Prop :=
  ∀ earlier later amount, kept ticks = some earlier → tick.reading = some later →
    difference later earlier = some amount → Fresh ticks ∨ amount = 0

/-- **The meter shows the rate between two readings exactly where no tick lies between them**, or
nothing has moved. -/
theorem fromReadings_iff {ticks : List (Tick R)} {tick : Tick R} (hpositive : ∀ tick ∈ ticks, 0 < tick.elapsed)
    (helapsed : 0 < tick.elapsed) :
    (∀ rate, (step difference (kept ticks) tick).1 = some rate → FromReadings difference ticks tick rate) ↔
      Steady difference ticks tick := by
  constructor
  · intro h earlier later amount hkept hlater hdifference
    obtain ⟨age, earlier', later', amount', hlast, hlater', hdifference', hrate⟩ :=
      h (amount / tick.elapsed) (step_rate.mpr ⟨earlier, later, amount, hkept, hlater, hdifference, rfl⟩)
    rw [kept_eq, hlast] at hkept
    obtain rfl := Option.some.inj hkept
    obtain rfl := Option.some.inj (hlater.symm.trans hlater')
    obtain rfl := Option.some.inj (hdifference.symm.trans hdifference')
    obtain ⟨hage, hfresh⟩ := age_of_lastReading hpositive hlast
    have hne : age + tick.elapsed ≠ 0 := by linarith
    -- the two quotients agree where the age or the amount is zero
    have hproduct : age * amount = 0 := by
      field_simp at hrate
      linarith
    rcases mul_eq_zero.mp hproduct with hzero | hzero
    · exact .inl (hfresh.mp hzero)
    · exact .inr hzero
  · intro h rate hrate
    obtain ⟨earlier, later, amount, hkept, hlater, hdifference, rfl⟩ := step_rate.mp hrate
    have hsteady := h earlier later amount hkept hlater hdifference
    rw [kept_eq] at hkept
    obtain ⟨⟨age, _⟩, hlast, rfl⟩ := Option.map_eq_some_iff.mp hkept
    refine ⟨age, _, later, amount, hlast, hlater, hdifference, ?_⟩
    rcases hsteady with hfresh | rfl
    · rw [(age_of_lastReading hpositive hlast).2.mpr hfresh, zero_add]
    · rw [zero_div, zero_div]

end SystemMonitor.Lib.Meter
