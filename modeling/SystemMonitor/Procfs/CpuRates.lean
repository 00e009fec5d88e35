import Mathlib.Data.List.Chain
import SystemMonitor.Lib.Meter
import SystemMonitor.Procfs.CpuAccounting

/-! Scheduler rates over a run of samples.

An update whose `/proc/stat` cannot be read leaves the published values and the retained
counts alone, and the next one divides by the time since the update before it.
`scheduler_rates_iff` says after which updates of a run the rates are those between two
observations and nothing old is still published. -/
namespace SystemMonitor.Procfs
open Lib CStrings

inductive SchedulerEvent where
  | interrupts
  | contextSwitches
  deriving DecidableEq

namespace SchedulerEvent

/-- The name of its line. -/
def name : SchedulerEvent → Text
  | interrupts => ascii "intr"
  | contextSwitches => ascii "ctxt"

def counted (sample : LsmCpuAccountingSample) : SchedulerEvent → Nat
  | interrupts => sample.interrupts
  | contextSwitches => sample.contextSwitches

def retained (state : LsmCpuAccountingState) : SchedulerEvent → Nat
  | interrupts => state.previousInterruptCount
  | contextSwitches => state.previousContextSwitchCount

/-- The published rate. -/
def rate (cpu : LsmCpuInfo) : SchedulerEvent → Option ℚ
  | interrupts => cpu.interruptsPerSec
  | contextSwitches => cpu.contextSwitchesPerSec

end SchedulerEvent

/-- One update: what `/proc/stat` holds, `none` where it cannot be read, and the monotonic time. -/
structure CpuUpdate where
  stat : Option Text
  now : ℚ

/-- The scheduler part of the monitor and its backend. -/
structure CpuSampler where
  cpu : LsmCpuInfo
  state : LsmCpuAccountingState
  lastUpdate : ℚ

section
variable (lib : Library) (arith : Arithmetic)

/-- A text with a NUL is not parsed. -/
def lsmCpuAccountingRead (stat : Option Text) : Option LsmCpuAccountingSample :=
  stat.bind fun text => if 0 ∈ text then none else lsmCpuAccountingParse lib arith true text

/-- The scheduler part of `lsm_cpu_memory_initialise`, and the time that is noted behind it. -/
def lsmCpuMemoryInitialise (logicalCores : Nat) (boot : CpuUpdate) : Option CpuSampler :=
  (lsmCpuAccountingRead lib arith boot.stat).map fun sample =>
    let applied := lsmCpuAccountingApply arith { logicalCores := logicalCores } {} sample true (some 0)
    ⟨applied.1, applied.2, boot.now⟩

/-- The scheduler part of `lsm_cpu_memory_update`. -/
def lsmCpuMemoryUpdate (s : CpuSampler) (stat : Option Text) (elapsed : ℚ) : CpuSampler :=
  match lsmCpuAccountingRead lib arith stat with
  | none => s
  | some sample =>
    let applied := lsmCpuAccountingApply arith s.cpu s.state sample false (some elapsed)
    { s with cpu := applied.1, state := applied.2 }

/-- The beginning of `sample_once`. -/
def sampleOnce (s : CpuSampler) (update : CpuUpdate) : CpuSampler :=
  if update.now ≤ s.lastUpdate then s
  else
    lsmCpuMemoryUpdate lib arith { s with lastUpdate := update.now } update.stat (update.now - s.lastUpdate)

/-- A monitor that came up, and its updates at later and later times. -/
structure CpuRun where
  logicalCores : Nat
  boot : CpuUpdate
  sampler : CpuSampler
  booted : lsmCpuMemoryInitialise lib arith logicalCores boot = some sampler
  updates : List CpuUpdate
  increasing : (boot :: updates).IsChain (·.now < ·.now)

variable {lib arith}

/-- The sampler after the first updates. -/
def CpuRun.after (run : CpuRun lib arith) (earlier : List CpuUpdate) : CpuSampler :=
  earlier.foldl (sampleOnce lib arith) run.sampler

end

/-! ### Observations -/

section
variable (lib : Library) (arith : Arithmetic)

/-- The count of an event in a text, if it has the event's line. -/
def SchedulerEvent.countIn (event : SchedulerEvent) (text : Text) : Option Nat :=
  lastOf (fun line => parseNamedCounter lib line event.name) (tokens (· == 10) text)

/-- The text of an update that could be read and parsed. -/
def CpuUpdate.applied (update : CpuUpdate) : Option Text :=
  if (lsmCpuAccountingRead lib arith update.stat).isSome then update.stat else none

/-- An observation of the event: its time and the count. -/
def CpuUpdate.observation (event : SchedulerEvent) (update : CpuUpdate) : Option (ℚ × Nat) :=
  ((update.applied lib arith).bind (event.countIn lib)).map fun count => (update.now, count)

/-- The last update whose text was applied. -/
def lastUpdateApplied (updates : List CpuUpdate) : Option CpuUpdate :=
  lastOf (fun update => (update.applied lib arith).map fun _ => update) updates

/-- The rate between two observations. -/
def rateBetween (earlier later : ℚ × Nat) : ℚ := ((later.2 : ℚ) - earlier.2) / (later.1 - earlier.1)

/-- Neither a usage nor a rate is published. -/
def Unpublished (cpu : LsmCpuInfo) : Prop :=
  cpu.usageAvailable = false ∧ (∀ i < lsmMaxCpus, cpu.coreUsage i = none) ∧
    ∀ event : SchedulerEvent, event.rate cpu = none

variable {lib arith}

/-- After the update every published rate is one between two observations, and nothing is published
after an update that could not be read. -/
def CpuRun.Matches (run : CpuRun lib arith) (earlier : List CpuUpdate) (update : CpuUpdate) : Prop :=
  (∀ event rate, SchedulerEvent.rate (sampleOnce lib arith (run.after earlier) update).cpu event = some rate →
    ∃ first ∈ (run.boot :: earlier ++ [update]), ∃ second ∈ (run.boot :: earlier ++ [update]),
      ∃ observed ∈ first.observation lib arith event, ∃ observed' ∈ second.observation lib arith event,
        observed.1 < observed'.1 ∧ observed.2 ≤ observed'.2 ∧ rate = rateBetween observed observed') ∧
    (update.applied lib arith = none → Unpublished (sampleOnce lib arith (run.after earlier) update).cpu)

/-- The same, with the two observations the counts were taken from: this one and the last one before. -/
def CpuRun.MatchesLast (run : CpuRun lib arith) (earlier : List CpuUpdate) (update : CpuUpdate) : Prop :=
  ((update.applied lib arith).isSome →
    ∀ event rate, SchedulerEvent.rate (sampleOnce lib arith (run.after earlier) update).cpu event = some rate →
      ∃ last ∈ lastUpdateApplied lib arith (run.boot :: earlier),
        ∃ observed ∈ last.observation lib arith event, ∃ observed' ∈ update.observation lib arith event,
          observed.2 ≤ observed'.2 ∧ rate = rateBetween observed observed') ∧
    (update.applied lib arith = none → Unpublished (sampleOnce lib arith (run.after earlier) update).cpu)

/-- Where a count has not fallen below the retained one, both texts have the event's line, and the
update before was applied or the count has not moved; and an update that cannot be read finds
nothing published. -/
def CpuRun.Steady (run : CpuRun lib arith) (earlier : List CpuUpdate) (update : CpuUpdate) : Prop :=
  (∀ text ∈ update.applied lib arith, ∀ event : SchedulerEvent,
    event.retained (run.after earlier).state ≤ (event.countIn lib text).getD 0 →
      (event.countIn lib text).isSome ∧
        (∃ last ∈ lastUpdateApplied lib arith (run.boot :: earlier), (last.observation lib arith event).isSome) ∧
        ((∃ last ∈ (run.boot :: earlier).getLast?, (last.applied lib arith).isSome) ∨
          event.countIn lib text = some (event.retained (run.after earlier).state))) ∧
    (update.applied lib arith = none → Unpublished (run.after earlier).cpu)

end

/-! ### One text -/

section
variable (lib : Library) (arith : Arithmetic)

/-- Of two names neither of which begins the other, a line begins with one at most. -/
theorem isPrefixOf_exclusive {a b line : Text} (hab : a.isPrefixOf b = false) (hba : b.isPrefixOf a = false)
    (h : a.isPrefixOf line = true) : b.isPrefixOf line = false := by
  by_contra hnot
  have hb : b.isPrefixOf line = true := by simpa using hnot
  rcases List.prefix_or_prefix_of_prefix (List.isPrefixOf_iff_prefix.mp h) (List.isPrefixOf_iff_prefix.mp hb) with
    hle | hle
  · exact Bool.noConfusion (hab.symm.trans (List.isPrefixOf_iff_prefix.mpr hle))
  · exact Bool.noConfusion (hba.symm.trans (List.isPrefixOf_iff_prefix.mpr hle))

theorem parseNamedCounter_other {line name : Text} (h : name.isPrefixOf line = false) :
    parseNamedCounter lib line name = none := by
  rw [parseNamedCounter, h]
  rfl

/-- What one line does to the count of an event. -/
theorem takeCpuLine_counted (event : SchedulerEvent) (s : CpuParse) (line : Text) :
    event.counted (takeCpuLine lib arith s line).sample =
      (parseNamedCounter lib line event.name).getD (event.counted s.sample) := by
  rw [takeCpuLine]
  split
  next hrow =>
    have hcpu : (ascii "cpu").isPrefixOf line = true := (Bool.and_eq_true_iff.mp hrow).1
    have hother : event.name.isPrefixOf line = false := by
      cases event with
      | interrupts => exact isPrefixOf_exclusive (by decide) (by decide) hcpu
      | contextSwitches => exact isPrefixOf_exclusive (by decide) (by decide) hcpu
    rw [parseNamedCounter_other lib hother, Option.getD_none]
    split
    next => rfl
    next =>
      split
      next => cases event <;> rfl
      next => split <;> cases event <;> rfl
  next =>
    split
    next hinterrupts =>
      cases event with
      | interrupts => rfl
      | contextSwitches =>
        have hother : SchedulerEvent.contextSwitches.name.isPrefixOf line = false :=
          isPrefixOf_exclusive (by decide) (by decide) hinterrupts
        rw [parseNamedCounter_other lib hother]
        rfl
    next hnot =>
      split
      next hswitches =>
        cases event with
        | interrupts =>
          have hother : SchedulerEvent.interrupts.name.isPrefixOf line = false :=
            isPrefixOf_exclusive (by decide) (by decide) hswitches
          rw [parseNamedCounter_other lib hother]
          rfl
        | contextSwitches => rfl
      next hnot' =>
        have hother : event.name.isPrefixOf line = false := by
          cases event with
          | interrupts => exact eq_false_of_ne_true hnot
          | contextSwitches => exact eq_false_of_ne_true hnot'
        rw [parseNamedCounter_other lib hother, Option.getD_none]

/-- A count is the one of the event's last line, or zero. -/
theorem parse_counted (event : SchedulerEvent) (text : Text) :
    event.counted (cpuAccountingParseMutable lib arith text).sample = (event.countIn lib text).getD 0 := by
  rw [cpuAccountingParseMutable, SchedulerEvent.countIn]
  induction tokens (· == 10) text using List.reverseRecOn with
  | nil => cases event <;> rfl
  | append_singleton lines line ih =>
    rw [cpuAccountingParse_concat, takeCpuLine_counted, lastOf_concat, ih]
    cases parseNamedCounter lib line event.name <;> rfl

/-- What is applied of an update. -/
theorem applied_cases (update : CpuUpdate) :
    (update.applied lib arith = none ∧ lsmCpuAccountingRead lib arith update.stat = none) ∨
      ∃ text sample, update.applied lib arith = some text ∧ lsmCpuAccountingRead lib arith update.stat = some sample ∧
        sample.cpuCount ≠ 0 ∧ ∀ event : SchedulerEvent, event.counted sample = (event.countIn lib text).getD 0 := by
  cases hread : lsmCpuAccountingRead lib arith update.stat with
  | none => exact .inl ⟨by rw [CpuUpdate.applied, hread]; rfl, rfl⟩
  | some sample =>
    obtain ⟨text, hstat, hparse⟩ := Option.bind_eq_some_iff.mp hread
    refine .inr ⟨text, sample, ?_, rfl, ?_⟩
    · rw [CpuUpdate.applied, hread, hstat]
      rfl
    · split at hparse
      next => exact nomatch hparse
      next =>
        rw [lsmCpuAccountingParse] at hparse
        split at hparse
        next hfound =>
          obtain rfl := Option.some.inj hparse
          have hpos := (parse_count lib arith text).1 (Bool.and_eq_true_iff.mp hfound).2
          exact ⟨Nat.pos_iff_ne_zero.mp hpos, fun event => parse_counted lib arith event text⟩
        next => exact nomatch hparse

end

/-! ### One update -/

/-- How far a count has moved. -/
def growth (later earlier : Nat) : Option ℚ := if earlier ≤ later then some ((later : ℚ) - earlier) else none

theorem growth_eq_some {later earlier : Nat} {amount : ℚ} :
    growth later earlier = some amount ↔ earlier ≤ later ∧ amount = (later : ℚ) - earlier := by
  rw [growth]
  split
  next hle => exact ⟨fun h => ⟨hle, (Option.some.inj h).symm⟩, fun h => congrArg some h.2.symm⟩
  next hnot => exact ⟨fun h => (nomatch h), fun h => absurd h.1 hnot⟩

section
variable {lib : Library} {arith : Arithmetic}

theorem u64CounterRate_eq (current previous : Nat) {elapsed : ℚ} (h : 0 < elapsed) :
    arith.u64CounterRate current previous 1 elapsed = (growth current previous).map (· / elapsed) := by
  rw [arith.counterRate_eq, growth]
  by_cases hle : previous ≤ current
  · rw [if_pos ⟨hle, h⟩, if_pos hle, Option.map_some, Nat.cast_sub hle, mul_one]
  · rw [if_neg fun hboth => hle hboth.1, if_neg hle, Option.map_none]

/-- What an application does to the counts of an event. -/
theorem apply_event (arith : Arithmetic) (event : SchedulerEvent) (cpu : LsmCpuInfo) (state : LsmCpuAccountingState)
    {sample : LsmCpuAccountingSample} (hcount : sample.cpuCount ≠ 0) (initial : Bool) (elapsed : ℚ) :
    let applied := lsmCpuAccountingApply arith cpu state sample initial (some elapsed)
    event.rate applied.1 = (if !initial && state.schedulerEventsInitialized then
        if 0 < elapsed then arith.u64CounterRate (event.counted sample) (event.retained state) 1 elapsed else none
      else none) ∧
      event.retained applied.2 = event.counted sample ∧ applied.2.schedulerEventsInitialized = true := by
  intro applied
  have happlied : applied = lsmCpuAccountingApply arith cpu state sample initial (some elapsed) := rfl
  rw [lsmCpuAccountingApply, if_neg hcount] at happlied
  rw [happlied]
  cases event <;> exact ⟨rfl, rfl, rfl⟩

/-- What the meter of an event reads of an update. -/
def CpuUpdate.reading (lib : Library) (arith : Arithmetic) (event : SchedulerEvent) (update : CpuUpdate) : Option Nat :=
  (update.applied lib arith).map fun text => (event.countIn lib text).getD 0

/-- An update at a later time moves the time; it is one tick of the meter of each event, or leaves
everything else alone. -/
theorem sampleOnce_later {s : CpuSampler} {update : CpuUpdate} (hlater : s.lastUpdate < update.now)
    (hready : s.state.schedulerEventsInitialized = true) :
    (sampleOnce lib arith s update).lastUpdate = update.now ∧
      (sampleOnce lib arith s update).state.schedulerEventsInitialized = true ∧
      (update.applied lib arith = none → (sampleOnce lib arith s update).cpu = s.cpu ∧
        (sampleOnce lib arith s update).state = s.state) ∧
      ((update.applied lib arith).isSome → ∀ event,
        let tick := ⟨update.now - s.lastUpdate, update.reading lib arith event⟩
        SchedulerEvent.rate (sampleOnce lib arith s update).cpu event =
            (Meter.step growth (some (event.retained s.state)) tick).1 ∧
          tick.reading = some (event.retained (sampleOnce lib arith s update).state)) := by
  rw [sampleOnce, if_neg (not_le.mpr hlater), lsmCpuMemoryUpdate]
  rcases applied_cases lib arith update with ⟨hnone, hread⟩ | ⟨text, sample, happlied, hread, hcount, hcounted⟩
  · rw [hread, hnone]
    exact ⟨rfl, hready, fun _ => ⟨rfl, rfl⟩, fun h => nomatch h⟩
  · rw [hread, happlied]
    have helapsed : 0 < update.now - s.lastUpdate := sub_pos.mpr hlater
    have hevent := fun event => apply_event arith event s.cpu s.state hcount false
      (update.now - s.lastUpdate)
    refine ⟨rfl, (hevent .interrupts).2.2, fun h => (nomatch h), fun _ event => ?_⟩
    have hreading : update.reading lib arith event = some (event.counted sample) := by
      rw [CpuUpdate.reading, happlied, Option.map_some, hcounted]
    obtain ⟨hrate, hretained, -⟩ := hevent event
    dsimp only
    rw [hreading, hretained]
    refine ⟨?_, rfl⟩
    rw [hrate, hready, if_pos helapsed, u64CounterRate_eq _ _ helapsed]
    rfl

/-! ### Runs -/

/-- What the meter of an event has seen, up to some update. -/
structure Tracks (run : CpuRun lib arith) (event : SchedulerEvent) (earlier : List CpuUpdate)
    (ticks : List (Meter.Tick Nat)) : Prop where
  ready : (run.after earlier).state.schedulerEventsInitialized = true
  positive : ∀ tick ∈ ticks, 0 < tick.elapsed
  kept : Meter.kept ticks = some (event.retained (run.after earlier).state)
  fresh : Meter.Fresh ticks ↔ ∃ last ∈ (run.boot :: earlier).getLast?, (last.applied lib arith).isSome
  last : Meter.lastReading ticks = (lastUpdateApplied lib arith (run.boot :: earlier)).map fun update =>
    ((run.after earlier).lastUpdate - update.now, (update.reading lib arith event).getD 0)

theorem CpuRun.after_concat (run : CpuRun lib arith) (earlier : List CpuUpdate) (update : CpuUpdate) :
    run.after (earlier ++ [update]) = sampleOnce lib arith (run.after earlier) update :=
  List.foldl_concat _ _ _ _

theorem lastUpdateApplied_concat (updates : List CpuUpdate) (update : CpuUpdate) :
    lastUpdateApplied lib arith (updates ++ [update]) =
      ((update.applied lib arith).map fun _ => update).or (lastUpdateApplied lib arith updates) :=
  lastOf_concat _ _ _

/-- Every update of a run comes later than the one before. -/
theorem CpuRun.later (run : CpuRun lib arith) {earlier later : List CpuUpdate} {update : CpuUpdate}
    (h : run.updates = earlier ++ update :: later)
    (hbefore : ∀ last ∈ (run.boot :: earlier).getLast?, (run.after earlier).lastUpdate = last.now) :
    (run.after earlier).lastUpdate < update.now := by
  have hchain := run.increasing
  rw [h, ← List.cons_append, List.isChain_append] at hchain
  obtain ⟨last, hlast⟩ : ∃ last, (run.boot :: earlier).getLast? = some last :=
    Option.isSome_iff_exists.mp (List.getLast?_isSome.mpr (List.cons_ne_nil _ _))
  rw [hbefore last hlast]
  exact hchain.2.2 last hlast update rfl

theorem CpuRun.now_lt (run : CpuRun lib arith) {earlier later : List CpuUpdate} {update last : CpuUpdate}
    (h : run.updates = earlier ++ update :: later) (hmem : last ∈ run.boot :: earlier) : last.now < update.now := by
  let before := fun a b : CpuUpdate => a.now < b.now
  have htrans : Trans before before before := ⟨fun hab hbc => lt_trans hab hbc⟩
  have hpairwise : (run.boot :: run.updates).Pairwise before := List.isChain_iff_pairwise.mp run.increasing
  rw [h, ← List.cons_append] at hpairwise
  exact (List.pairwise_append.mp hpairwise).2.2 last hmem update List.mem_cons_self

theorem observation_time {event : SchedulerEvent} {update : CpuUpdate} {observed : ℚ × Nat}
    (h : update.observation lib arith event = some observed) : observed.1 = update.now := by
  obtain ⟨_, _, rfl⟩ := Option.map_eq_some_iff.mp h
  rfl

/-- The first reading of a run. -/
theorem CpuRun.boot_tracks (run : CpuRun lib arith) (event : SchedulerEvent) :
    (run.after []).lastUpdate = run.boot.now ∧ Tracks run event [] [⟨1, run.boot.reading lib arith event⟩] := by
  obtain ⟨sample, hread, hsampler⟩ := Option.map_eq_some_iff.mp run.booted
  rcases applied_cases lib arith run.boot with ⟨-, hnone⟩ | ⟨text, sample', happlied, hread', hcount, hcounted⟩
  · exact nomatch hread.symm.trans hnone
  · obtain rfl := Option.some.inj (hread.symm.trans hread')
    obtain ⟨-, hretained, hready⟩ :=
      apply_event arith event { logicalCores := run.logicalCores } {} hcount true 0
    have hreading : run.boot.reading lib arith event = some (event.counted sample) := by
      rw [CpuUpdate.reading, happlied, Option.map_some, hcounted]
    have hlast : lastUpdateApplied lib arith [run.boot] = some run.boot := by
      rw [← List.nil_append [run.boot], lastUpdateApplied_concat, happlied]
      rfl
    have hstate : (run.after []).state = (lsmCpuAccountingApply arith { logicalCores := run.logicalCores } {} sample
        true (some 0)).2 := congrArg CpuSampler.state hsampler.symm
    have htime : (run.after []).lastUpdate = run.boot.now := congrArg CpuSampler.lastUpdate hsampler.symm
    refine ⟨htime, ⟨hstate ▸ hready, ?_, ?_, ?_, ?_⟩⟩
    · intro tick hmem
      rw [List.mem_singleton.mp hmem]
      exact one_pos
    · rw [hstate, hretained, ← List.nil_append [_], Meter.kept_concat, hreading, Option.some_or]
    · rw [hreading]
      exact iff_of_true ⟨_, rfl, rfl⟩ ⟨run.boot, rfl, by rw [happlied]; rfl⟩
    · rw [hlast, htime, ← List.nil_append [_], Meter.lastReading_concat, hreading, Option.map_some, sub_self,
        hreading]
      rfl

/-- One more update is one more tick. -/
theorem Tracks.concat {run : CpuRun lib arith} {event : SchedulerEvent} {earlier : List CpuUpdate}
    {ticks : List (Meter.Tick Nat)} (h : Tracks run event earlier ticks) {update : CpuUpdate}
    (hlater : (run.after earlier).lastUpdate < update.now) :
    Tracks run event (earlier ++ [update])
      (ticks ++ [⟨update.now - (run.after earlier).lastUpdate, update.reading lib arith event⟩]) := by
  obtain ⟨htime, hready, hskip, hstep⟩ := @sampleOnce_later lib arith _ _ hlater h.ready
  rw [← run.after_concat] at htime hready hskip hstep
  have hlast : (run.boot :: (earlier ++ [update])).getLast? = some update := by
    rw [← List.cons_append, List.getLast?_concat]
  have hreading : (update.reading lib arith event).isSome = (update.applied lib arith).isSome := Option.isSome_map
  refine ⟨hready, ?_, ?_, ?_, ?_⟩
  · intro tick hmem
    rcases List.mem_append.mp hmem with hmem | hmem
    · exact h.positive tick hmem
    · rw [List.mem_singleton.mp hmem]
      exact sub_pos.mpr hlater
  · rw [Meter.kept_concat, h.kept]
    cases happlied : update.applied lib arith with
    | none =>
      rw [(hskip happlied).2, CpuUpdate.reading, happlied]
      rfl
    | some text =>
      rw [(hstep (by rw [happlied]; rfl) event).2, Option.some_or]
  · rw [Meter.Fresh, List.getLast?_concat, hlast]
    constructor
    · rintro ⟨tick, htick, hsome⟩
      obtain rfl := Option.some.inj htick
      exact ⟨update, rfl, hreading ▸ hsome⟩
    · rintro ⟨last, hmem, hsome⟩
      obtain rfl := Option.some.inj hmem
      exact ⟨_, rfl, hreading.trans hsome⟩
  · rw [← List.cons_append, lastUpdateApplied_concat, Meter.lastReading_concat, h.last, htime]
    cases happlied : update.applied lib arith with
    | none =>
      have hnone : update.reading lib arith event = none := by rw [CpuUpdate.reading, happlied, Option.map_none]
      rw [hnone, Option.map_none, Option.none_or]
      dsimp only
      rw [Option.map_map]
      refine congrArg (Option.map · _) (funext fun last => Prod.ext ?_ rfl)
      show (run.after earlier).lastUpdate - last.now + (update.now - (run.after earlier).lastUpdate) = _
      ring
    | some text =>
      have hsome : update.reading lib arith event = some ((event.countIn lib text).getD 0) := by
        rw [CpuUpdate.reading, happlied, Option.map_some]
      rw [hsome, Option.map_some, Option.some_or, Option.map_some, sub_self, hsome]
      rfl

theorem CpuRun.exists_tracks (run : CpuRun lib arith) (event : SchedulerEvent) {earlier later : List CpuUpdate}
    (h : run.updates = earlier ++ later) :
    (∀ last ∈ (run.boot :: earlier).getLast?, (run.after earlier).lastUpdate = last.now) ∧
      ∃ ticks, Tracks run event earlier ticks := by
  induction earlier using List.reverseRecOn generalizing later with
  | nil =>
    obtain ⟨htime, htracks⟩ := run.boot_tracks event
    refine ⟨fun last hlast => ?_, _, htracks⟩
    obtain rfl := Option.some.inj hlast
    exact htime
  | append_singleton earlier update ih =>
    rw [List.append_assoc] at h
    obtain ⟨hbefore, ticks, htracks⟩ := ih h
    have hlater := run.later h hbefore
    obtain ⟨htime, -⟩ := @sampleOnce_later lib arith _ _ hlater htracks.ready
    refine ⟨fun last hlast => ?_, _, htracks.concat hlater⟩
    rw [← List.cons_append, List.getLast?_concat] at hlast
    obtain rfl := Option.some.inj hlast
    rw [run.after_concat, htime]

/-- What the meter shows is the rate between the last two observations, when both texts have the line. -/
theorem observed_iff {run : CpuRun lib arith} {event : SchedulerEvent} {earlier : List CpuUpdate}
    {ticks : List (Meter.Tick Nat)} (h : Tracks run event earlier ticks) {update : CpuUpdate} {text : Text}
    (happlied : update.applied lib arith = some text) {rate : ℚ} :
    (∃ last ∈ lastUpdateApplied lib arith (run.boot :: earlier),
      ∃ observed ∈ last.observation lib arith event, ∃ observed' ∈ update.observation lib arith event,
        observed.2 ≤ observed'.2 ∧ rate = rateBetween observed observed') ↔
    Meter.FromReadings growth ticks
        ⟨update.now - (run.after earlier).lastUpdate, update.reading lib arith event⟩ rate ∧
      (event.countIn lib text).isSome ∧
        ∃ last ∈ lastUpdateApplied lib arith (run.boot :: earlier), (last.observation lib arith event).isSome := by
  have hreading : update.reading lib arith event = some ((event.countIn lib text).getD 0) := by
    rw [CpuUpdate.reading, happlied, Option.map_some]
  have hobservation : update.observation lib arith event =
      (event.countIn lib text).map fun count => (update.now, count) := by
    rw [CpuUpdate.observation, happlied, Option.bind_some]
  have hage : ∀ last : CpuUpdate, (run.after earlier).lastUpdate - last.now +
      (update.now - (run.after earlier).lastUpdate) = update.now - last.now := fun last => by ring
  have hread : ∀ last observed, CpuUpdate.observation lib arith event last = some observed →
      observed.1 = last.now ∧ (last.reading lib arith event).getD 0 = observed.2 := by
    intro last observed hobserved
    obtain ⟨count, hcount, rfl⟩ := Option.map_eq_some_iff.mp hobserved
    obtain ⟨text', happlied', hcountIn⟩ := Option.bind_eq_some_iff.mp hcount
    refine ⟨rfl, ?_⟩
    rw [CpuUpdate.reading, happlied', Option.map_some, Option.getD_some, hcountIn, Option.getD_some]
  constructor
  · rintro ⟨last, hlast, observed, hobserved, observed', hobserved', hle, hrate⟩
    obtain ⟨htime, hcount⟩ := hread last observed hobserved
    rw [hobservation] at hobserved'
    obtain ⟨count, hcountIn, rfl⟩ := Option.map_eq_some_iff.mp hobserved'
    refine ⟨⟨(run.after earlier).lastUpdate - last.now, observed.2, count, (count : ℚ) - observed.2, ?_, ?_, growth_eq_some.mpr ⟨hle, rfl⟩, ?_⟩, ?_,
      last, hlast, ?_⟩
    · rw [h.last, hlast, Option.map_some, hcount]
    · rw [hreading, hcountIn, Option.getD_some]
    · rw [hage, hrate, rateBetween, htime]
    · rw [hcountIn]
      rfl
    · rw [hobserved]
      rfl
  · rintro ⟨⟨age, earlier', later, amount, hlastReading, hlater, hgrowth, hrate⟩, hline, last, hlast, hlastLine⟩
    obtain ⟨observed, hobserved⟩ := Option.isSome_iff_exists.mp hlastLine
    obtain ⟨count, hcountIn⟩ := Option.isSome_iff_exists.mp hline
    obtain ⟨htime, hcount⟩ := hread last observed hobserved
    rw [h.last, hlast, Option.map_some, hcount] at hlastReading
    obtain ⟨rfl, rfl⟩ := Prod.mk.inj (Option.some.inj hlastReading)
    obtain rfl := Option.some.inj (hlater.symm.trans hreading)
    rw [hcountIn, Option.getD_some] at hgrowth
    obtain ⟨hle, rfl⟩ := growth_eq_some.mp hgrowth
    refine ⟨last, hlast, observed, hobserved, (update.now, count), ?_, hle, ?_⟩
    · rw [hobservation, hcountIn]
      rfl
    · rw [hrate, hage, rateBetween, htime]

/-- One event after one update that was applied. -/
theorem event_iff {run : CpuRun lib arith} {event : SchedulerEvent} {earlier : List CpuUpdate}
    {ticks : List (Meter.Tick Nat)} (h : Tracks run event earlier ticks) {update : CpuUpdate} {text : Text}
    (hlater : (run.after earlier).lastUpdate < update.now) (happlied : update.applied lib arith = some text) :
    (∀ rate, event.rate (sampleOnce lib arith (run.after earlier) update).cpu = some rate →
      ∃ last ∈ lastUpdateApplied lib arith (run.boot :: earlier),
        ∃ observed ∈ last.observation lib arith event, ∃ observed' ∈ update.observation lib arith event,
          observed.2 ≤ observed'.2 ∧ rate = rateBetween observed observed') ↔
    (event.retained (run.after earlier).state ≤ (event.countIn lib text).getD 0 →
      (event.countIn lib text).isSome ∧
        (∃ last ∈ lastUpdateApplied lib arith (run.boot :: earlier), (last.observation lib arith event).isSome) ∧
        ((∃ last ∈ (run.boot :: earlier).getLast?, (last.applied lib arith).isSome) ∨
          event.countIn lib text = some (event.retained (run.after earlier).state))) := by
  obtain ⟨-, -, -, hstep⟩ := @sampleOnce_later lib arith _ _ hlater h.ready
  have hreading : update.reading lib arith event = some ((event.countIn lib text).getD 0) := by
    rw [CpuUpdate.reading, happlied, Option.map_some]
  have hrates := @Meter.fromReadings_iff _ growth _ ⟨_, update.reading lib arith event⟩ h.positive
    (sub_pos.mpr hlater)
  have hshown := (hstep (by rw [happlied]; rfl) event).1
  rw [← h.kept] at hshown
  rw [hshown]
  constructor
  · intro hall hle
    have hgrowth := growth_eq_some.mpr ⟨hle, rfl⟩
    obtain ⟨-, hline, hlast⟩ := (observed_iff h happlied).mp
      (hall _ (Meter.step_rate.mpr ⟨_, _, _, h.kept, hreading, hgrowth, rfl⟩))
    refine ⟨hline, hlast, ?_⟩
    have hsteady := hrates.mp (fun rate hrate => ((observed_iff h happlied).mp (hall rate hrate)).1)
      _ _ _ h.kept hreading hgrowth
    rcases hsteady with hfresh | hzero
    · exact .inl (h.fresh.mp hfresh)
    · obtain ⟨count, hcount⟩ := Option.isSome_iff_exists.mp hline
      rw [hcount, Option.getD_some] at hzero
      have heq : count = event.retained (run.after earlier).state := by exact_mod_cast sub_eq_zero.mp hzero
      exact .inr (hcount.trans (congrArg some heq))
  · intro hall rate hrate
    have hline : event.retained (run.after earlier).state ≤ (event.countIn lib text).getD 0 := by
      obtain ⟨_, _, _, hkept, hlater', hgrowth, -⟩ := Meter.step_rate.mp hrate
      obtain rfl := Option.some.inj (h.kept.symm.trans hkept)
      obtain rfl := Option.some.inj (hreading.symm.trans hlater')
      exact (growth_eq_some.mp hgrowth).1
    obtain ⟨hnow, hlast, hsteady⟩ := hall hline
    refine (observed_iff h happlied).mpr ⟨hrates.mpr ?_ rate hrate, hnow, hlast⟩
    intro earlier' later' amount hkept hlater' hgrowth
    rcases hsteady with hfresh | hsame
    · exact .inl (h.fresh.mpr hfresh)
    · obtain rfl := Option.some.inj (h.kept.symm.trans hkept)
      obtain rfl := Option.some.inj (hreading.symm.trans hlater')
      obtain ⟨-, rfl⟩ := growth_eq_some.mp hgrowth
      rw [hsame, Option.getD_some, sub_self]
      exact .inr rfl

/-- **After an update of a run every rate is the one between the last two observations, and nothing
old is published, exactly where the update is steady**: an update that is not applied finds nothing
published, and a rate is only formed after an update that was applied. -/
theorem scheduler_rates_iff (run : CpuRun lib arith) (i : Fin run.updates.length) :
    let earlier := run.updates.take i
    let update := run.updates.get i
    (run.MatchesLast earlier update ↔ run.Steady earlier update) ∧
      (run.Steady earlier update → run.Matches earlier update) := by
  intro earlier update
  have hupdates : run.updates = earlier ++ update :: run.updates.drop (i + 1) := by
    have hdrop : run.updates.drop i = update :: run.updates.drop (i + 1) := List.drop_eq_getElem_cons i.isLt
    rw [← hdrop]
    exact (List.take_append_drop _ _).symm
  have htracks := fun event => run.exists_tracks event hupdates
  have hlater := run.later hupdates (htracks .interrupts).1
  obtain ⟨-, ticks, hticks⟩ := htracks .interrupts
  obtain ⟨-, -, hskip, -⟩ := @sampleOnce_later lib arith _ _ hlater hticks.ready
  have hiff : run.MatchesLast earlier update ↔ run.Steady earlier update := by
    refine and_congr ?_ ?_
    · constructor
      · intro hall text happlied event
        obtain ⟨-, ticks, hticks⟩ := htracks event
        exact (event_iff hticks hlater happlied).mp (hall (by rw [happlied]; rfl) event)
      · intro hall happlied event
        obtain ⟨text, htext⟩ := Option.isSome_iff_exists.mp happlied
        obtain ⟨-, ticks, hticks⟩ := htracks event
        exact (event_iff hticks hlater htext).mpr (hall text htext event)
    · refine imp_congr_right fun hnone => ?_
      rw [(hskip hnone).1]
  refine ⟨hiff, fun hsteady => ?_⟩
  obtain ⟨hrates, hstale⟩ := hiff.mpr hsteady
  refine ⟨fun event rate hrate => ?_, hstale⟩
  cases happlied : update.applied lib arith with
  | none => exact nomatch ((hstale happlied).2.2 event).symm.trans hrate
  | some text =>
    obtain ⟨last, hlast, observed, hobserved, observed', hobserved', hle, heq⟩ :=
      hrates (by rw [happlied]; rfl) event rate hrate
    have hmem : last ∈ run.boot :: earlier := by
      obtain ⟨update', hmem, hupdate⟩ := exists_of_lastOf hlast
      obtain ⟨_, _, rfl⟩ := Option.map_eq_some_iff.mp hupdate
      exact hmem
    have htime : observed.1 < observed'.1 := by
      rw [observation_time hobserved, observation_time hobserved']
      exact run.now_lt hupdates hmem
    exact ⟨last, List.mem_append_left _ hmem, update, List.mem_append_right _ (List.mem_singleton_self _), observed,
      hobserved, observed', hobserved', htime, hle, heq⟩

end

/-! ### A sample that is missed -/

def statAt (user count : String) : Text := ascii ("cpu " ++ user ++ " 0 0 0\nintr " ++ count ++ "\nctxt 0\n")

def missedBoot : CpuUpdate := ⟨some (statAt "100" "0"), 0⟩

/-- Ten interrupts in the first second, then 200 in two seconds of which the first sample is missed. -/
def missedUpdates : List CpuUpdate := [⟨some (statAt "200" "10"), 1⟩, ⟨none, 2⟩, ⟨some (statAt "300" "210"), 3⟩]

theorem missed_boots :
    (lsmCpuMemoryInitialise Library.documented Arithmetic.documented 1 missedBoot).isSome = true := by decide

theorem missed_increasing : (missedBoot :: missedUpdates).IsChain (·.now < ·.now) := by decide

theorem missed_booted : lsmCpuMemoryInitialise Library.documented Arithmetic.documented 1 missedBoot =
    some ((lsmCpuMemoryInitialise Library.documented Arithmetic.documented 1 missedBoot).get missed_boots) :=
  (Option.some_get _).symm

def missedRun : CpuRun Library.documented Arithmetic.documented where
  logicalCores := 1
  boot := missedBoot
  sampler := (lsmCpuMemoryInitialise Library.documented Arithmetic.documented 1 missedBoot).get missed_boots
  booted := missed_booted
  updates := missedUpdates
  increasing := missed_increasing

/-- After the missed sample the first rate is still published, and the sample behind it shows 200
interrupts a second where there were 100. -/
theorem missed_rates :
    ¬missedRun.Matches (missedUpdates.take 1) ⟨none, 2⟩ ∧
      ¬missedRun.Matches (missedUpdates.take 2) ⟨some (statAt "300" "210"), 3⟩ := by
  constructor
  · intro h
    exact absurd (h.2 (by decide)).1 (by decide)
  · intro h
    exact absurd (h.1 .interrupts 200 (by decide +kernel)) (by decide +kernel)

end SystemMonitor.Procfs
