import SystemMonitor.Procfs.CpuAccounting

/-! Usage of cores that come and go.

A core without a row has zero counters in a sample, and the retained counters are replaced
as far as the sample reaches. A core that returns is therefore measured against zero, or
against a row from before the gap.

`core_usage_rows_iff`: over every run of samples, usage comes from the rows of two
successive samples exactly when no core that returns has counters that moved on from what
is retained for it. -/
namespace SystemMonitor.Procfs
open Lib CStrings

/-- One call of `read_cpu_counters`: what `/proc/stat` holds, and its two arguments. -/
structure CpuReading where
  text : Text
  initial : Bool
  elapsedSeconds : Option ℚ

section
variable (lib : Library) (arith : Arithmetic)

/-- A text without an aggregate row is not applied. -/
def readCpuCounters (s : LsmCpuInfo × LsmCpuAccountingState) (reading : CpuReading) :
    LsmCpuInfo × LsmCpuAccountingState :=
  match lsmCpuAccountingParse lib arith true reading.text with
  | none => s
  | some sample => lsmCpuAccountingApply arith s.1 s.2 sample reading.initial reading.elapsedSeconds

def readAll (s : LsmCpuInfo × LsmCpuAccountingState) (readings : List CpuReading) :
    LsmCpuInfo × LsmCpuAccountingState :=
  readings.foldl (readCpuCounters lib arith) s

/-- The sample was applied. -/
def IsApplied (reading : CpuReading) : Prop := (lsmCpuAccountingParse lib arith true reading.text).isSome = true

instance (reading : CpuReading) : Decidable (IsApplied lib arith reading) := inferInstanceAs (Decidable (_ = true))

/-- The text of the last sample that was applied. -/
def lastApplied (readings : List CpuReading) : Option Text :=
  lastOf (fun reading => if IsApplied lib arith reading then some reading.text else none) readings

/-- After a reading, usage of a core comes from its rows in this sample and the one applied before. -/
def UsageFromRows (s : LsmCpuInfo × LsmCpuAccountingState) (earlier : List CpuReading) (reading : CpuReading) : Prop :=
  ∀ i < lsmMaxCpus, ∀ usage,
    (readCpuCounters lib arith (readAll lib arith s earlier) reading).1.coreUsage i = some usage →
      ∃ previous current, (lastApplied lib arith earlier).bind (coreRowIn lib arith i) = some previous ∧
        coreRowIn lib arith i reading.text = some current ∧
        (busyPercent arith current previous).map (·.2) = some usage

/-- The total has grown, the idle time has not fallen, and it has not grown by more. -/
def CountsFrom (baseline current : LsmCpuCounters) : Prop :=
  baseline.total < current.total ∧ baseline.idle ≤ current.idle ∧
    current.idle - baseline.idle ≤ current.total - baseline.total

/-- A core whose row is new does not count from what is retained for it. -/
def ReturnsQuietly (s : LsmCpuInfo × LsmCpuAccountingState) (earlier : List CpuReading) (reading : CpuReading) : Prop :=
  reading.initial = false → ∀ i < min s.1.logicalCores lsmMaxCpus, ∀ current,
    coreRowIn lib arith i reading.text = some current →
      (lastApplied lib arith earlier).bind (coreRowIn lib arith i) = none →
        ¬ CountsFrom ((readAll lib arith s earlier).2.previous (i + 1)) current

end

/-! ### One application -/

section
variable (lib : Library) (arith : Arithmetic)

theorem busyPercent_isSome_iff (current previous : LsmCpuCounters) :
    (busyPercent arith current previous).isSome = true ↔ CountsFrom previous current := by
  unfold busyPercent CountsFrom
  rw [arith.counterDelta_eq, arith.counterDelta_eq]
  by_cases htotal : previous.total ≤ current.total
  · by_cases hidle : previous.idle ≤ current.idle
    · rw [if_pos htotal, if_pos hidle]
      dsimp only
      by_cases hmoved : 0 < current.total - previous.total ∧ current.idle - previous.idle ≤ current.total - previous.total
      · rw [if_pos hmoved]
        exact ⟨fun _ => ⟨by omega, hidle, hmoved.2⟩, fun _ => rfl⟩
      · rw [if_neg hmoved]
        exact ⟨fun h => (by cases h), fun h => absurd ⟨by omega, h.2.2⟩ hmoved⟩
    · rw [if_pos htotal, if_neg hidle]
      exact ⟨fun h => (by cases h), fun h => absurd h.2.1 hidle⟩
  · rw [if_neg htotal]
    exact ⟨fun h => (by cases h), fun h => absurd h.1.le htotal⟩

/-- The counters that a fold of the loop has replaced. -/
theorem applyIndex_previous (sample : LsmCpuAccountingSample) (initial : Bool)
    (s : LsmCpuInfo × (Nat → LsmCpuCounters)) (n : Nat) :
    ((List.range n).foldl (applyIndex arith sample initial) s).2 = fun j => if j < n then sample.cpus j else s.2 j := by
  induction n with
  | zero => rfl
  | succ n ih =>
    rw [List.range_succ, List.foldl_append]
    show Function.update ((List.range n).foldl (applyIndex arith sample initial) s).2 n (sample.cpus n) = _
    rw [ih]
    funext j
    by_cases hj : j = n
    · rw [hj, Function.update_self, if_pos (Nat.lt_succ_self n)]
    · rw [Function.update_of_ne hj]
      by_cases hlt : j < n
      · rw [if_pos hlt, if_pos (Nat.lt_succ_of_lt hlt)]
      · rw [if_neg hlt, if_neg (by omega)]

theorem applyIndex_cpu (sample : LsmCpuAccountingSample) (initial : Bool) (s : LsmCpuInfo × (Nat → LsmCpuCounters))
    (index : Nat) : (applyIndex arith sample initial s index).1.logicalCores = s.1.logicalCores ∧
      ∀ i, (applyIndex arith sample initial s index).1.coreUsage i =
        if index = i + 1 then
          ((if initial then none else busyPercent arith (sample.cpus index) (s.2 index)).map (·.2)).or (s.1.coreUsage i)
        else s.1.coreUsage i := by
  unfold applyIndex
  dsimp only
  cases if initial then none else busyPercent arith (sample.cpus index) (s.2 index) with
  | none => exact ⟨rfl, fun i => by simp⟩
  | some busy =>
    obtain ⟨totalDelta, usage⟩ := busy
    dsimp only
    by_cases hzero : index = 0
    · rw [if_pos hzero]
      exact ⟨rfl, fun i => by rw [if_neg (by omega)]⟩
    · rw [if_neg hzero]
      refine ⟨rfl, fun i => ?_⟩
      dsimp only
      by_cases hi : index = i + 1
      · rw [if_pos hi, hi, Nat.add_sub_cancel, Function.update_self]
        rfl
      · rw [if_neg hi, Function.update_of_ne (by omega)]

/-- The usage of a core comes from its own turn of the loop. -/
theorem applyIndex_usage (sample : LsmCpuAccountingSample) (initial : Bool)
    (s : LsmCpuInfo × (Nat → LsmCpuCounters)) (n : Nat) :
    ((List.range n).foldl (applyIndex arith sample initial) s).1.logicalCores = s.1.logicalCores ∧
      ∀ i, ((List.range n).foldl (applyIndex arith sample initial) s).1.coreUsage i =
        if i + 1 < n then
          ((if initial then none else busyPercent arith (sample.cpus (i + 1)) (s.2 (i + 1))).map (·.2)).or
            (s.1.coreUsage i)
        else s.1.coreUsage i := by
  induction n with
  | zero => exact ⟨rfl, fun i => rfl⟩
  | succ n ih =>
    obtain ⟨ihcores, ihusage⟩ := ih
    rw [List.range_succ, List.foldl_append, List.foldl_cons, List.foldl_nil]
    obtain ⟨hcores, husage⟩ := applyIndex_cpu arith sample initial
      ((List.range n).foldl (applyIndex arith sample initial) s) n
    refine ⟨hcores.trans ihcores, fun i => ?_⟩
    rw [husage, ihusage, applyIndex_previous]
    by_cases hi : n = i + 1
    · have hstill : ¬ n < n := Nat.lt_irrefl n
      dsimp only
      rw [if_pos hi, ← hi, if_neg hstill, if_neg hstill, hi, if_pos (Nat.lt_succ_self (i + 1))]
    · rw [if_neg hi]
      by_cases hlt : i + 1 < n
      · have hturn : i + 1 < n + 1 := by omega
        rw [if_pos hlt, if_pos hturn]
      · have hlater : ¬ i + 1 < n + 1 := by omega
        rw [if_neg hlt, if_neg hlater]

theorem readCpuCounters_skip {s : LsmCpuInfo × LsmCpuAccountingState} {reading : CpuReading}
    (h : ¬ IsApplied lib arith reading) : readCpuCounters lib arith s reading = s := by
  have hnone : lsmCpuAccountingParse lib arith true reading.text = none := by
    cases hparse : lsmCpuAccountingParse lib arith true reading.text with
    | none => rfl
    | some sample => exact absurd (by rw [IsApplied, hparse]; rfl) h
  rw [readCpuCounters, hnone]

/-- What an application does to a core: usage against what was retained, and its counters retained
as far as the sample reaches. -/
theorem readCpuCounters_core {s : LsmCpuInfo × LsmCpuAccountingState} {reading : CpuReading}
    (h : IsApplied lib arith reading) :
    (readCpuCounters lib arith s reading).1.logicalCores = s.1.logicalCores ∧
      ∃ reach, (∀ i, (coreRowIn lib arith i reading.text).isSome → i < s.1.logicalCores → i < lsmMaxCpus → i + 1 < reach) ∧
        reach ≤ s.1.logicalCores + 1 ∧
        (∀ i < lsmMaxCpus, (readCpuCounters lib arith s reading).1.coreUsage i =
          if i + 1 < reach ∧ reading.initial = false then
            (busyPercent arith ((coreRowIn lib arith i reading.text).getD {}) (s.2.previous (i + 1))).map (·.2)
          else none) ∧
        ∀ i, (readCpuCounters lib arith s reading).2.previous (i + 1) =
          if i + 1 < reach then (coreRowIn lib arith i reading.text).getD {} else s.2.previous (i + 1) := by
  obtain ⟨hfound, hcount⟩ := parse_count lib arith reading.text
  have haggregate : (cpuAccountingParseMutable lib arith reading.text).aggregateFound = true := by
    unfold IsApplied lsmCpuAccountingParse at h
    dsimp only at h
    cases hagg : (cpuAccountingParseMutable lib arith reading.text).aggregateFound with
    | true => rfl
    | false =>
      rw [hagg] at h
      cases h
  have hread : readCpuCounters lib arith s reading = lsmCpuAccountingApply arith s.1 s.2
      (cpuAccountingParseMutable lib arith reading.text).sample reading.initial reading.elapsedSeconds := by
    unfold readCpuCounters lsmCpuAccountingParse
    dsimp only
    rw [haggregate]
    rfl
  have hpositive : (cpuAccountingParseMutable lib arith reading.text).sample.cpuCount ≠ 0 := by
    have hpos := hfound haggregate
    omega
  rw [hread]
  unfold lsmCpuAccountingApply
  rw [if_neg hpositive]
  dsimp only
  obtain ⟨hcores, husage⟩ := applyIndex_usage arith (cpuAccountingParseMutable lib arith reading.text).sample
    reading.initial ({ s.1 with
      usagePercent := none, userPercent := none, kernelPercent := none, usageAvailable := false
      coreUsage := fun index => if index < lsmMaxCpus then none else s.1.coreUsage index }, s.2.previous)
    (usable (cpuAccountingParseMutable lib arith reading.text).sample s.1.logicalCores)
  refine ⟨hcores, usable (cpuAccountingParseMutable lib arith reading.text).sample s.1.logicalCores,
    fun i hrow hi hmax => ?_, ?_, fun i hi => ?_, fun i => ?_⟩
  · have hle := hcount i hrow
    unfold usable
    split <;> omega
  · unfold usable
    split <;> omega
  · rw [husage, parse_core]
    dsimp only
    rw [if_pos hi]
    by_cases hreach : i + 1 < usable (cpuAccountingParseMutable lib arith reading.text).sample s.1.logicalCores
    · rw [if_pos hreach, Option.or_none]
      cases reading.initial with
      | true => rw [if_pos rfl, if_neg fun h => Bool.noConfusion h.2, Option.map_none]
      | false => rw [if_neg Bool.false_ne_true, if_pos ⟨hreach, rfl⟩]
    · rw [if_neg hreach, if_neg fun h => hreach h.1]
  · rw [applyIndex_previous]
    dsimp only
    rw [parse_core]

/-! ### Runs -/

theorem readAll_concat (s : LsmCpuInfo × LsmCpuAccountingState) (readings : List CpuReading) (reading : CpuReading) :
    readAll lib arith s (readings ++ [reading]) = readCpuCounters lib arith (readAll lib arith s readings) reading := by
  rw [readAll, List.foldl_append]
  rfl

/-- What is retained for a core that had a row in the last applied sample is that row. -/
theorem readAll_retained (s : LsmCpuInfo × LsmCpuAccountingState) (readings : List CpuReading) :
    (readAll lib arith s readings).1.logicalCores = s.1.logicalCores ∧
      ∀ i < min s.1.logicalCores lsmMaxCpus, ∀ row,
        (lastApplied lib arith readings).bind (coreRowIn lib arith i) = some row →
          (readAll lib arith s readings).2.previous (i + 1) = row := by
  induction readings using List.reverseRecOn with
  | nil => exact ⟨rfl, fun i _ row h => by cases h⟩
  | append_singleton readings reading ih =>
    obtain ⟨ihcores, ihrow⟩ := ih
    rw [readAll_concat, lastApplied, lastOf_concat]
    by_cases happlied : IsApplied lib arith reading
    · obtain ⟨hcores, reach, hreach, -, -, hprevious⟩ := readCpuCounters_core lib arith
        (s := readAll lib arith s readings) happlied
      refine ⟨hcores.trans ihcores, fun i hi row hrow => ?_⟩
      rw [if_pos happlied, Option.some_or, Option.bind_some] at hrow
      rw [hprevious, hrow, if_pos (hreach i (by rw [hrow]; rfl) (by omega) (by omega))]
      rfl
    · rw [readCpuCounters_skip lib arith happlied, if_neg happlied, Option.none_or]
      exact ⟨ihcores, ihrow⟩

/-- The step: an application keeps to the rows exactly when no core that returns counts on. -/
theorem usageFromRows_iff (s : LsmCpuInfo × LsmCpuAccountingState) (earlier : List CpuReading) {reading : CpuReading}
    (happlied : IsApplied lib arith reading) :
    UsageFromRows lib arith s earlier reading ↔ ReturnsQuietly lib arith s earlier reading := by
  obtain ⟨hcores, hretained⟩ := readAll_retained lib arith s earlier
  obtain ⟨-, reach, hreach, hreachLe, husage, -⟩ := readCpuCounters_core lib arith
    (s := readAll lib arith s earlier) happlied
  rw [hcores] at hreach hreachLe
  constructor
  · intro h hinitial i hi current hcurrent hnone hcounts
    obtain ⟨⟨totalDelta, usage⟩, hbusy⟩ := Option.isSome_iff_exists.mp
      ((busyPercent_isSome_iff arith current ((readAll lib arith s earlier).2.previous (i + 1))).mpr hcounts)
    have hshown : (readCpuCounters lib arith (readAll lib arith s earlier) reading).1.coreUsage i = some usage := by
      rw [husage i (by omega), if_pos ⟨hreach i (by rw [hcurrent]; rfl) (by omega) (by omega), hinitial⟩, hcurrent,
        Option.getD_some, hbusy]
      rfl
    obtain ⟨previous, _, hprevious, -, -⟩ := h i (by omega) usage hshown
    rw [hnone] at hprevious
    cases hprevious
  · intro h i hi usage hshown
    rw [husage i hi] at hshown
    split at hshown
    · rename_i hturn
      obtain ⟨hlt, hinitial⟩ := hturn
      have hcore : i < min s.1.logicalCores lsmMaxCpus := by omega
      cases hcurrent : coreRowIn lib arith i reading.text with
      | none =>
        -- zero counters are never ahead of anything
        rw [hcurrent, Option.getD_none] at hshown
        obtain ⟨busy, hbusy, -⟩ := Option.map_eq_some_iff.mp hshown
        have hcounts := (busyPercent_isSome_iff arith {} ((readAll lib arith s earlier).2.previous (i + 1))).mp
          (by rw [hbusy]; rfl)
        exact absurd hcounts.1 (Nat.not_lt_zero _)
      | some current =>
        rw [hcurrent, Option.getD_some] at hshown
        cases hprevious : (lastApplied lib arith earlier).bind (coreRowIn lib arith i) with
        | some previous =>
          rw [hretained i hcore previous hprevious] at hshown
          exact ⟨previous, current, rfl, rfl, hshown⟩
        | none =>
          obtain ⟨busy, hbusy, -⟩ := Option.map_eq_some_iff.mp hshown
          have hcounts := (busyPercent_isSome_iff arith current ((readAll lib arith s earlier).2.previous (i + 1))).mp
            (by rw [hbusy]; rfl)
          exact absurd hcounts (h hinitial i hcore current hcurrent hprevious)
    · cases hshown

/-- **Usage is derived from successive rows in every run exactly when no core that returns
counts on.** -/
theorem core_usage_rows_iff (s : LsmCpuInfo × LsmCpuAccountingState) (readings : List CpuReading) :
    (∀ earlier reading later, readings = earlier ++ reading :: later → IsApplied lib arith reading →
      UsageFromRows lib arith s earlier reading) ↔
    ∀ earlier reading later, readings = earlier ++ reading :: later → IsApplied lib arith reading →
      ReturnsQuietly lib arith s earlier reading := by
  constructor
  · intro h earlier reading later hrun happlied
    exact (usageFromRows_iff lib arith s earlier happlied).mp (h earlier reading later hrun happlied)
  · intro h earlier reading later hrun happlied
    exact (usageFromRows_iff lib arith s earlier happlied).mpr (h earlier reading later hrun happlied)

end

/-- Three samples with the row of core 0 in the first and the last. -/
def gapReadings : List CpuReading :=
  [⟨ascii "cpu 200 0 0 200\ncpu0 100 0 0 100\ncpu1 100 0 0 100\n", true, none⟩,
   ⟨ascii "cpu 300 0 0 300\ncpu1 200 0 0 200\n", false, some 1⟩,
   ⟨ascii "cpu 500 0 0 500\ncpu0 200 0 0 200\ncpu1 300 0 0 300\n", false, some 1⟩]

/-- The core that returns shows half its time since the start as usage. -/
theorem core_usage_gap : ¬ ∀ (lib : Library) (arith : Arithmetic) (s : LsmCpuInfo × LsmCpuAccountingState)
    (readings earlier later : List CpuReading) (reading : CpuReading),
    readings = earlier ++ reading :: later → IsApplied lib arith reading → UsageFromRows lib arith s earlier reading := by
  intro h
  have hrows := h Library.documented Arithmetic.documented ({ logicalCores := 2 }, {}) gapReadings
    (gapReadings.take 2) [] (gapReadings.getD 2 ⟨[], false, none⟩) rfl (by decide) 0 (by decide) 50
    (by decide +kernel)
  obtain ⟨previous, _, hprevious, -⟩ := hrows
  have hnone : (lastApplied Library.documented Arithmetic.documented (gapReadings.take 2)).bind
      (coreRowIn Library.documented Arithmetic.documented 0) = none := by decide
  rw [hnone] at hprevious
  cases hprevious

end SystemMonitor.Procfs
