import SystemMonitor.Lib.Last
import SystemMonitor.Procfs.Library

/-! Scheduler accounting.

A sample of `/proc/stat` is an array of counters: the whole machine at 0 and core `i` at
`i + 1`; what has no row stays zero. A sample is applied against the retained counters of
the samples before it. A finite `double` is a rational and `NAN` is `none`. -/
namespace SystemMonitor.Procfs
open Lib CStrings

def lsmMaxCpus : Nat := 512

structure LsmCpuCounters where
  total : Nat := 0
  idle : Nat := 0
  user : Nat := 0
  kernel : Nat := 0
  deriving DecidableEq

/-- The arrays have `lsmMaxCpus + 1` places; no place behind them is written. -/
structure LsmCpuAccountingSample where
  cpus : Nat → LsmCpuCounters := fun _ => {}
  cpuCount : Nat := 0
  interrupts : Nat := 0
  contextSwitches : Nat := 0

structure LsmCpuAccountingState where
  previous : Nat → LsmCpuCounters := fun _ => {}
  previousInterruptCount : Nat := 0
  previousContextSwitchCount : Nat := 0
  schedulerEventsInitialized : Bool := false

/-- What an application writes; `logicalCores` it reads. -/
structure LsmCpuInfo where
  logicalCores : Nat
  usagePercent : Option ℚ := none
  userPercent : Option ℚ := none
  kernelPercent : Option ℚ := none
  usageAvailable : Bool := false
  coreUsage : Nat → Option ℚ := fun _ => none
  interruptCount : Nat := 0
  contextSwitchCount : Nat := 0
  interruptsPerSec : Option ℚ := none
  contextSwitchesPerSec : Option ℚ := none

section
variable (lib : Library) (arith : Arithmetic)

/-- The numerals from the cursor on, as many as there are places. -/
def fieldsFrom : Nat → Text → List Nat
  | 0, _ => []
  | places + 1, cursor =>
    match lib.parseU64Token cursor with
    | none => []
    | some (value, rest) => value :: fieldsFrom places rest

def sumFields (fields : List Nat) : Nat := fields.foldl arith.u64AddSaturating 0

def parseCpuRow (line : Text) : Option LsmCpuCounters :=
  if !(ascii "cpu").isPrefixOf line then none
  else
    let cursor := (line.drop 3).dropWhile Decimal.isDigit
    if cursor ≠ [] ∧ lib.asciiIsSpace (cursor.headD 0) = false then none
    else
      let fields := fieldsFrom lib 8 cursor
      if fields.length < 4 then none
      else
        some
          { total := sumFields arith fields
            idle := arith.u64AddSaturating (fields.getD 3 0) (fields.getD 4 0)
            user := arith.u64AddSaturating (fields.getD 0 0) (fields.getD 1 0)
            kernel := arith.u64AddSaturating (arith.u64AddSaturating (fields.getD 2 0) (fields.getD 5 0))
              (fields.getD 6 0) }

def parseNamedCounter (line name : Text) : Option Nat :=
  if !name.isPrefixOf line || !((line.drop name.length).head?.any lib.asciiIsSpace) then none
  else (lib.parseU64Token (line.drop name.length)).map (·.1)

/-- The byte behind `cpu` is one of a kind; at the end of the line it is NUL. -/
def fourth (p : UInt8 → Bool) (line : Text) : Bool := (line.drop 3).head?.any p

/-- The core whose row a line is. -/
def coreIndex (line : Text) : Option Nat :=
  match lib.parseU64Token (line.drop 3) with
  | none => none
  | some (parsedIndex, cursor) =>
    if cursor.head?.any lib.asciiIsSpace && parsedIndex < lsmMaxCpus then some parsedIndex else none

/-- The sample, and `aggregate_found`. -/
structure CpuParse where
  sample : LsmCpuAccountingSample := {}
  aggregateFound : Bool := false

def takeCpuLine (s : CpuParse) (line : Text) : CpuParse :=
  if (ascii "cpu").isPrefixOf line && (fourth lib.asciiIsSpace line || fourth Decimal.isDigit line) then
    match parseCpuRow lib arith line with
    | none => s
    | some counter =>
      if fourth lib.asciiIsSpace line then
        { sample := { s.sample with
            cpus := Function.update s.sample.cpus 0 counter
            cpuCount := if s.sample.cpuCount = 0 then 1 else s.sample.cpuCount }
          aggregateFound := true }
      else
        match coreIndex lib line with
        | none => s
        | some index =>
          { s with sample := { s.sample with
              cpus := Function.update s.sample.cpus (index + 1) counter
              cpuCount := if s.sample.cpuCount < index + 2 then index + 2 else s.sample.cpuCount } }
  else if (ascii "intr").isPrefixOf line then
    { s with sample := { s.sample with
        interrupts := (parseNamedCounter lib line (ascii "intr")).getD s.sample.interrupts } }
  else if (ascii "ctxt").isPrefixOf line then
    { s with sample := { s.sample with
        contextSwitches := (parseNamedCounter lib line (ascii "ctxt")).getD s.sample.contextSwitches } }
  else s

def cpuAccountingParseMutable (text : Text) : CpuParse := (tokens (· == 10) text).foldl (takeCpuLine lib arith) {}

/-- `copied`: `strdup` had memory. `none`: the call returned false. -/
def lsmCpuAccountingParse (copied : Bool) (text : Text) : Option LsmCpuAccountingSample :=
  let parse := cpuAccountingParseMutable lib arith text
  if copied && parse.aggregateFound then some parse.sample else none

/-- The share of an interval that was not idle, when the counters allow one. -/
def busyPercent (current previous : LsmCpuCounters) : Option (Nat × ℚ) :=
  match arith.u64CounterDelta current.total previous.total, arith.u64CounterDelta current.idle previous.idle with
  | some totalDelta, some idleDelta =>
    if 0 < totalDelta ∧ idleDelta ≤ totalDelta then
      some (totalDelta, arith.percentU64 (totalDelta - idleDelta) totalDelta)
    else none
  | _, _ => none

def counterPercent (current previous totalDelta : Nat) : Option ℚ :=
  if totalDelta = 0 then none else (arith.u64CounterDelta current previous).map (arith.percentU64 · totalDelta)

/-- One turn of the loop over the counters. -/
def applyIndex (sample : LsmCpuAccountingSample) (initial : Bool) (s : LsmCpuInfo × (Nat → LsmCpuCounters))
    (index : Nat) : LsmCpuInfo × (Nat → LsmCpuCounters) :=
  let current := sample.cpus index
  let previous := s.2 index
  let cpu :=
    match if initial then none else busyPercent arith current previous with
    | none => s.1
    | some (totalDelta, usage) =>
      if index = 0 then
        { s.1 with
          usagePercent := some usage
          usageAvailable := true
          userPercent := (counterPercent arith current.user previous.user totalDelta).or s.1.userPercent
          kernelPercent := (counterPercent arith current.kernel previous.kernel totalDelta).or s.1.kernelPercent }
      else { s.1 with coreUsage := Function.update s.1.coreUsage (index - 1) (some usage) }
  (cpu, Function.update s.2 index current)

/-- How many counters of a sample are applied. -/
def usable (sample : LsmCpuAccountingSample) (logicalCores : Nat) : Nat :=
  min (if sample.cpuCount < logicalCores + 1 then sample.cpuCount else logicalCores + 1) (lsmMaxCpus + 1)

/-- `elapsedSeconds`: `none` when it is not finite. -/
def lsmCpuAccountingApply (cpu : LsmCpuInfo) (state : LsmCpuAccountingState) (sample : LsmCpuAccountingSample)
    (initial : Bool) (elapsedSeconds : Option ℚ) : LsmCpuInfo × LsmCpuAccountingState :=
  if sample.cpuCount = 0 then (cpu, state)
  else
    let cleared := { cpu with
      usagePercent := none, userPercent := none, kernelPercent := none, usageAvailable := false
      coreUsage := fun index => if index < lsmMaxCpus then none else cpu.coreUsage index }
    let applied := (List.range (usable sample cpu.logicalCores)).foldl (applyIndex arith sample initial)
      (cleared, state.previous)
    let rate := fun current previous =>
      if !initial && state.schedulerEventsInitialized then
        match elapsedSeconds with
        | none => none
        | some elapsed => if 0 < elapsed then arith.u64CounterRate current previous 1 elapsed else none
      else none
    ({ applied.1 with
        interruptCount := sample.interrupts
        contextSwitchCount := sample.contextSwitches
        interruptsPerSec := rate sample.interrupts state.previousInterruptCount
        contextSwitchesPerSec := rate sample.contextSwitches state.previousContextSwitchCount },
      { previous := applied.2
        previousInterruptCount := sample.interrupts
        previousContextSwitchCount := sample.contextSwitches
        schedulerEventsInitialized := true })

end

/-! ### The rows of a text -/

section
variable (lib : Library) (arith : Arithmetic)

/-- The counters of a line that is the row of core `i`. -/
def coreRow (i : Nat) (line : Text) : Option LsmCpuCounters :=
  if (ascii "cpu").isPrefixOf line && !fourth lib.asciiIsSpace line && fourth Decimal.isDigit line &&
      decide (coreIndex lib line = some i) then parseCpuRow lib arith line
  else none

/-- The counters of a line that is an aggregate row. -/
def aggregateRow (line : Text) : Option LsmCpuCounters :=
  if (ascii "cpu").isPrefixOf line && fourth lib.asciiIsSpace line then parseCpuRow lib arith line else none

/-- The row of core `i`; the last one when there are several. -/
def coreRowIn (i : Nat) (text : Text) : Option LsmCpuCounters := lastOf (coreRow lib arith i) (tokens (· == 10) text)

theorem cpuAccountingParse_concat (lines : List Text) (line : Text) :
    (lines ++ [line]).foldl (takeCpuLine lib arith) {} =
      takeCpuLine lib arith (lines.foldl (takeCpuLine lib arith) {}) line := by
  rw [List.foldl_append]
  rfl

/-- What one line does: it is the aggregate row, the row of one core, or neither. -/
inductive CpuLine (s : CpuParse) (line : Text) : Prop where
  | aggregate (counter : LsmCpuCounters) (row : aggregateRow lib arith line = some counter)
    (core : ∀ i, coreRow lib arith i line = none)
    (cpus : (takeCpuLine lib arith s line).sample.cpus = Function.update s.sample.cpus 0 counter)
    (count : (takeCpuLine lib arith s line).sample.cpuCount = max s.sample.cpuCount 1)
    (found : (takeCpuLine lib arith s line).aggregateFound = true)
  | core (index : Nat) (counter : LsmCpuCounters) (row : coreRow lib arith index line = some counter)
    (others : ∀ i, i ≠ index → coreRow lib arith i line = none) (aggregate : aggregateRow lib arith line = none)
    (cpus : (takeCpuLine lib arith s line).sample.cpus = Function.update s.sample.cpus (index + 1) counter)
    (count : (takeCpuLine lib arith s line).sample.cpuCount = max s.sample.cpuCount (index + 2))
    (found : (takeCpuLine lib arith s line).aggregateFound = s.aggregateFound)
  | other (aggregate : aggregateRow lib arith line = none) (core : ∀ i, coreRow lib arith i line = none)
    (cpus : (takeCpuLine lib arith s line).sample.cpus = s.sample.cpus)
    (count : (takeCpuLine lib arith s line).sample.cpuCount = s.sample.cpuCount)
    (found : (takeCpuLine lib arith s line).aggregateFound = s.aggregateFound)

/-- A line that is no counter row leaves the counters alone. -/
theorem takeCpuLine_skip (s : CpuParse) (line : Text)
    (h : ((ascii "cpu").isPrefixOf line && (fourth lib.asciiIsSpace line || fourth Decimal.isDigit line)) = false) :
    (takeCpuLine lib arith s line).sample.cpus = s.sample.cpus ∧
      (takeCpuLine lib arith s line).sample.cpuCount = s.sample.cpuCount ∧
      (takeCpuLine lib arith s line).aggregateFound = s.aggregateFound := by
  unfold takeCpuLine
  rw [h, if_neg Bool.false_ne_true]
  split
  · exact ⟨rfl, rfl, rfl⟩
  · split <;> exact ⟨rfl, rfl, rfl⟩

theorem cpuLine (s : CpuParse) (line : Text) : CpuLine lib arith s line := by
  cases hcpu : (ascii "cpu").isPrefixOf line && (fourth lib.asciiIsSpace line || fourth Decimal.isDigit line) with
  | false =>
    obtain ⟨hcpus, hcount, hfound⟩ := takeCpuLine_skip lib arith s line hcpu
    refine .other ?_ (fun i => ?_) hcpus hcount hfound
    · unfold aggregateRow
      rw [if_neg]
      intro h
      rw [Bool.and_eq_true] at h
      simp [h.1, h.2] at hcpu
    · unfold coreRow
      rw [if_neg]
      intro h
      simp only [Bool.and_eq_true] at h
      simp [h.1.1.1, h.1.2] at hcpu
  | true =>
    have hstart : (ascii "cpu").isPrefixOf line = true := (Bool.and_eq_true_iff.mp hcpu).1
    cases hspace : fourth lib.asciiIsSpace line with
    | true =>
      have hcore : ∀ i, coreRow lib arith i line = none := fun i => if_neg (by simp [hspace])
      have haggregate : aggregateRow lib arith line = parseCpuRow lib arith line := if_pos (by rw [hstart, hspace]; rfl)
      cases hrow : parseCpuRow lib arith line with
      | none =>
        have htake : takeCpuLine lib arith s line = s := by rw [takeCpuLine, if_pos hcpu, hrow]
        exact .other (haggregate.trans hrow) hcore (by rw [htake]) (by rw [htake]) (by rw [htake])
      | some counter =>
        have htake : takeCpuLine lib arith s line =
            { sample := { s.sample with
                cpus := Function.update s.sample.cpus 0 counter
                cpuCount := if s.sample.cpuCount = 0 then 1 else s.sample.cpuCount }
              aggregateFound := true } := by
          rw [takeCpuLine, if_pos hcpu, hrow]
          exact if_pos hspace
        refine .aggregate counter (haggregate.trans hrow) hcore (by rw [htake]) ?_ (by rw [htake])
        rw [htake]
        dsimp only
        split <;> omega
    | false =>
      have hdigit : fourth Decimal.isDigit line = true := by
        have hor := (Bool.and_eq_true_iff.mp hcpu).2
        rwa [hspace, Bool.false_or] at hor
      have haggregate : aggregateRow lib arith line = none := if_neg (by simp [hspace])
      have hcore : ∀ i, coreRow lib arith i line =
          if coreIndex lib line = some i then parseCpuRow lib arith line else none := by
        intro i
        unfold coreRow
        rw [hstart, hspace, hdigit]
        simp
      cases hrow : parseCpuRow lib arith line with
      | none =>
        have htake : takeCpuLine lib arith s line = s := by rw [takeCpuLine, if_pos hcpu, hrow]
        have hnone : ∀ i, coreRow lib arith i line = none := fun i => by rw [hcore, hrow, ite_self]
        exact .other haggregate hnone (by rw [htake]) (by rw [htake]) (by rw [htake])
      | some counter =>
        cases hindex : coreIndex lib line with
        | none =>
          have htake : takeCpuLine lib arith s line = s := by
            rw [takeCpuLine, if_pos hcpu, hrow]
            dsimp only
            rw [hspace, hindex]
            rfl
          have hnone : ∀ i, coreRow lib arith i line = none := fun i => by
            rw [hcore, hindex, if_neg (Option.some_ne_none i).symm]
          exact .other haggregate hnone (by rw [htake]) (by rw [htake]) (by rw [htake])
        | some index =>
          have htake : takeCpuLine lib arith s line =
              { s with sample := { s.sample with
                  cpus := Function.update s.sample.cpus (index + 1) counter
                  cpuCount := if s.sample.cpuCount < index + 2 then index + 2 else s.sample.cpuCount } } := by
            rw [takeCpuLine, if_pos hcpu, hrow]
            dsimp only
            rw [hspace, hindex]
            rfl
          refine .core index counter (by rw [hcore, hindex, if_pos rfl, hrow]) (fun i hi => ?_) haggregate
            (by rw [htake]) ?_ (by rw [htake])
          · rw [hcore, hindex, if_neg fun h => hi (Option.some.inj h).symm]
          · rw [htake]
            dsimp only
            split <;> omega

/-- What one line does to the place of a core. -/
theorem takeCpuLine_core (s : CpuParse) (line : Text) (i : Nat) :
    (takeCpuLine lib arith s line).sample.cpus (i + 1) = (coreRow lib arith i line).getD (s.sample.cpus (i + 1)) := by
  cases cpuLine lib arith s line with
  | aggregate counter _ hcore hcpus _ _ =>
    rw [hcpus, hcore i, Function.update_of_ne (Nat.succ_ne_zero i)]
    rfl
  | core index counter hrow hothers _ hcpus _ _ =>
    rw [hcpus]
    by_cases hi : i = index
    · rw [hi, hrow, Function.update_self]
      rfl
    · rw [hothers i hi, Function.update_of_ne fun h => hi (Nat.succ.inj h)]
      rfl
  | other _ hcore hcpus _ _ =>
    rw [hcpus, hcore i]
    rfl

/-- **A core's place holds its row**, or zero where it has none. -/
theorem parse_core (i : Nat) (text : Text) :
    (cpuAccountingParseMutable lib arith text).sample.cpus (i + 1) = (coreRowIn lib arith i text).getD {} := by
  unfold cpuAccountingParseMutable coreRowIn
  induction tokens (· == 10) text using List.reverseRecOn with
  | nil => rfl
  | append_singleton lines line ih =>
    rw [cpuAccountingParse_concat, takeCpuLine_core, lastOf_concat, ih]
    cases coreRow lib arith i line <;> rfl

/-- What one line does to the aggregate. -/
theorem takeCpuLine_aggregate (s : CpuParse) (line : Text) :
    (takeCpuLine lib arith s line).sample.cpus 0 = (aggregateRow lib arith line).getD (s.sample.cpus 0) ∧
    (takeCpuLine lib arith s line).aggregateFound = ((aggregateRow lib arith line).isSome || s.aggregateFound) := by
  cases cpuLine lib arith s line with
  | aggregate counter hrow _ hcpus _ hfound =>
    rw [hcpus, hrow, hfound, Function.update_self]
    exact ⟨rfl, rfl⟩
  | core index counter _ _ hnone hcpus _ hfound =>
    rw [hcpus, hnone, hfound, Function.update_of_ne (Nat.succ_ne_zero index).symm]
    exact ⟨rfl, rfl⟩
  | other hnone _ hcpus _ hfound =>
    rw [hcpus, hnone, hfound]
    exact ⟨rfl, rfl⟩

/-- A core with a row is among the counted ones. -/
theorem parse_count (text : Text) :
    ((cpuAccountingParseMutable lib arith text).aggregateFound = true →
      0 < (cpuAccountingParseMutable lib arith text).sample.cpuCount) ∧
    ∀ i, (coreRowIn lib arith i text).isSome → i + 2 ≤ (cpuAccountingParseMutable lib arith text).sample.cpuCount := by
  unfold cpuAccountingParseMutable coreRowIn
  induction tokens (· == 10) text using List.reverseRecOn with
  | nil =>
    constructor
    · intro h
      cases h
    · intro i h
      cases h
  | append_singleton lines line ih =>
    obtain ⟨ihfound, ihcore⟩ := ih
    rw [cpuAccountingParse_concat]
    refine ⟨fun h => ?_, fun i h => ?_⟩
    · cases cpuLine lib arith (lines.foldl (takeCpuLine lib arith) {}) line with
      | aggregate counter _ _ _ hcount _ => omega
      | core index counter _ _ _ _ hcount _ => omega
      | other _ _ _ hcount hfound =>
        rw [hfound] at h
        have hpos := ihfound h
        omega
    · rw [lastOf_concat] at h
      cases cpuLine lib arith (lines.foldl (takeCpuLine lib arith) {}) line with
      | aggregate counter _ hcore _ hcount _ =>
        rw [hcore, Option.none_or] at h
        have hle := ihcore i h
        omega
      | core index counter _ hothers _ _ hcount _ =>
        by_cases hi : i = index
        · omega
        · rw [hothers i hi, Option.none_or] at h
          have hle := ihcore i h
          omega
      | other _ hcore _ hcount _ =>
        rw [hcore, Option.none_or] at h
        have hle := ihcore i h
        omega

end

end SystemMonitor.Procfs
