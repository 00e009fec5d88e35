import SystemMonitor.Hardware.NpuTelemetry
import SystemMonitor.Lib.Meter

/-! Which time a busy percentage is about.

The time since the last reading of the busy counter is added up only in samples without a
percentage of the driver's own. Where no sample since that reading had one, a busy
percentage is the counter's growth between two readings over all of the time between them,
or it is shown again within the shortest interval (`npu_busy_interval`). A sample with a
percentage of its own in between goes missing in the divisor (`lost_interval`). -/
namespace SystemMonitor.Hardware.Npu
open Lib

structure Call where
  elapsed : ℚ
  positive : 0 < elapsed
  files : Text → Option Nat

/-- What a reading of the busy counter found, and the percentage it gave. -/
structure Reading where
  counter : Nat
  percent : Option ℚ

structure Entry extends Meter.Tick Reading where
  /-- The driver's own percentage could be read. -/
  utilised : Bool

section
variable (lib : Library)

/-- The call could read the driver's own percentage. -/
def utilised (t : LsmNpuTelemetry) (call : Call) : Bool := (readAttribute call.files t.utilization).isSome

/-- What the call reads of the busy counter, if it gets so far. -/
def busyReading (t : LsmNpuTelemetry) (call : Call) : Option Nat :=
  if utilised t call = true ∨ t.busyTimeUs = [] ∨
    t.busyElapsedSeconds + call.elapsed < lsmNpuMinBusySampleSeconds then none
  else call.files t.busyTimeUs

/-- The busy percentage that the call shows. -/
def busyShown (t : LsmNpuTelemetry) (call : Call) : Option ℚ :=
  let refreshed := (lsmNpuTelemetryRefresh lib t call.elapsed call.files).2.2
  if utilised t call || !refreshed.utilizationAvailable then none else some refreshed.utilizationPercent

def entry (t : LsmNpuTelemetry) (call : Call) : Entry where
  elapsed := call.elapsed
  reading := (busyReading t call).map fun counter => ⟨counter, busyShown lib t call⟩
  utilised := utilised t call

/-- The telemetry after some calls, and what they have read. -/
def afterCalls (attributes : Attributes) (calls : List Call) : LsmNpuTelemetry × List Entry :=
  calls.foldl (fun s call => ((lsmNpuTelemetryRefresh lib s.1 call.elapsed call.files).2.1, s.2 ++ [entry lib s.1 call]))
    ({ attributes with }, [])

/-- The last reading and the time since. -/
def lastReading (log : List Entry) : Option (ℚ × Reading) := Meter.lastReading (log.map Entry.toTick)

/-- The calls since the last reading. -/
def sinceReading (log : List Entry) : List Entry := log.reverse.takeWhile fun e => e.reading.isNone

/-- No call since the last reading had a percentage of the driver's own. -/
def Undisturbed (log : List Entry) : Prop := ∀ e ∈ sinceReading log, e.utilised = false

/-- The busy percentage that two readings give. -/
def percentBetween (earlier later : Nat) (seconds : ℚ) : ℚ :=
  max 0 (min 100 (((later - earlier : Nat) : ℚ) / 1000000 / seconds * 100))

/-- A percentage that comes from a reading and the last one over the time between the two, or else one that the last
reading gave, less than the shortest interval ago. -/
def FromInterval (log : List Entry) (elapsed : ℚ) (reading : Option Nat) (percent : ℚ) : Prop :=
  ∃ age last, lastReading log = some (age, last) ∧
    match reading with
    | some later => last.counter ≤ later ∧ percent = percentBetween last.counter later (age + elapsed)
    | none => last.percent = some percent ∧ age + elapsed < lsmNpuMinBusySampleSeconds

/-! ### One call -/

theorem lastReading_concat (log : List Entry) (e : Entry) : lastReading (log ++ [e]) =
    match e.reading with
    | none => (lastReading log).map fun (age, reading) => (age + e.elapsed, reading)
    | some reading => some (0, reading) := by
  rw [lastReading, List.map_append, List.map_singleton, Meter.lastReading_concat]
  cases e.reading with
  | none => rfl
  | some reading => rfl

theorem undisturbed_concat {log : List Entry} {e : Entry} (hreading : e.reading = none)
    (h : Undisturbed (log ++ [e])) : e.utilised = false ∧ Undisturbed log := by
  have hsince : sinceReading (log ++ [e]) = e :: sinceReading log := by
    rw [sinceReading, List.reverse_append, List.reverse_singleton, List.singleton_append,
      List.takeWhile_cons_of_pos (by rw [hreading]; rfl)]
    rfl
  rw [Undisturbed, hsince] at h
  exact ⟨h e (List.mem_cons_self ..), fun other hother => h other (List.mem_cons_of_mem _ hother)⟩

/-- What is kept is the last reading, and without a disturbance the time since. -/
structure Keeps (log : List Entry) (t : LsmNpuTelemetry) : Prop where
  reading : t.busyInitialised = true → t.busyTimeUs ≠ [] ∧ ∃ age last, lastReading log = some (age, last) ∧
    last.counter = t.previousBusyTimeUs ∧ (t.lastBusyValid = true → last.percent = some t.lastBusyPercent) ∧
    (Undisturbed log → t.busyElapsedSeconds = age)
  valid : t.lastBusyValid = true → t.busyInitialised = true

/-- What a call without a percentage of the driver's own does. -/
inductive Refreshes (t : LsmNpuTelemetry) (call : Call) : Option Nat → Option ℚ → LsmNpuTelemetry → Prop
  | absent (h : t.busyTimeUs = []) : Refreshes t call none none t
  | early (h : t.busyTimeUs ≠ []) (hearly : t.busyElapsedSeconds + call.elapsed < lsmNpuMinBusySampleSeconds) :
    Refreshes t call none (if t.lastBusyValid then some t.lastBusyPercent else none)
      {t with busyElapsedSeconds := t.busyElapsedSeconds + call.elapsed}
  | failed (h : t.busyTimeUs ≠ []) (hread : call.files t.busyTimeUs = none) : Refreshes t call none none
      {t with busyElapsedSeconds := 0, busyInitialised := false, lastBusyValid := false}
  | first (h : t.busyTimeUs ≠ []) {current : Nat} (hinitialised : t.busyInitialised = false) :
    Refreshes t call (some current) none {t with
      previousBusyTimeUs := current
      busyElapsedSeconds := 0
      busyInitialised := true
      lastBusyValid := false}
  | fell (h : t.busyTimeUs ≠ []) {current : Nat} (hinitialised : t.busyInitialised = true) :
    Refreshes t call (some current) none {t with
      previousBusyTimeUs := current
      busyElapsedSeconds := 0
      lastBusyValid := false}
  | rate (h : t.busyTimeUs ≠ []) {current : Nat} (hinitialised : t.busyInitialised = true)
      (hgrown : t.previousBusyTimeUs ≤ current) :
    Refreshes t call (some current)
      (some (percentBetween t.previousBusyTimeUs current (t.busyElapsedSeconds + call.elapsed))) {t with
        previousBusyTimeUs := current
        busyElapsedSeconds := 0
        lastBusyPercent := percentBetween t.previousBusyTimeUs current (t.busyElapsedSeconds + call.elapsed)
        lastBusyValid := true}

theorem refresh_telemetry (t : LsmNpuTelemetry) (call : Call) :
    (lsmNpuTelemetryRefresh lib t call.elapsed call.files).2.1 = (refreshUtilization lib t call.elapsed call.files).2.1 := rfl

/-- The other attributes leave the percentage alone. -/
theorem busyShown_eq (t : LsmNpuTelemetry) (call : Call) : busyShown lib t call =
    let npu := (refreshUtilization lib t call.elapsed call.files).2.2
    if utilised t call || !npu.utilizationAvailable then none else some npu.utilizationPercent := by
  unfold busyShown lsmNpuTelemetryRefresh
  dsimp only
  split
  next => rfl
  next => rfl

theorem refreshUtilization_of_not_utilised {t : LsmNpuTelemetry} {call : Call} (h : utilised t call = false) :
    refreshUtilization lib t call.elapsed call.files = refreshBusyTime lib t .cleared call.elapsed call.files := by
  rw [refreshUtilization, Option.isSome_eq_false_iff.mp h |> Option.isNone_iff_eq_none.mp]

theorem clamped_rate {counter previous : Nat} {seconds percent : ℚ}
    (h : lib.u64CounterRate counter previous (1 / 10000) seconds = some percent) :
    previous ≤ counter ∧ lib.clampDouble percent 0 100 = percentBetween previous counter seconds := by
  rw [lib.counterRate_eq] at h
  split at h
  next hgrown =>
    cases h
    refine ⟨hgrown.1, ?_⟩
    rw [lib.clampDouble_eq, percentBetween]
    ring_nf
  next => cases h

/-- The percentage that a refresh leaves. -/
def shownBy (npu : LsmNpuInfo) : Option ℚ := if npu.utilizationAvailable then some npu.utilizationPercent else none

/-- Every way through the refresh of the busy time. -/
theorem refreshBusyTime_cases (t : LsmNpuTelemetry) (call : Call) :
    let refreshed := refreshBusyTime lib t .cleared call.elapsed call.files
    Refreshes t call
      (if t.busyTimeUs = [] ∨ t.busyElapsedSeconds + call.elapsed < lsmNpuMinBusySampleSeconds then none
        else call.files t.busyTimeUs) (shownBy refreshed.2.2) refreshed.2.1 := by
  dsimp only
  unfold refreshBusyTime
  by_cases hpath : t.busyTimeUs = []
  · rw [if_pos (.inl hpath), if_pos (.inl hpath)]
    exact .absent hpath
  · rw [if_neg (show ¬(t.busyTimeUs = [] ∨ call.elapsed ≤ 0) from not_or.mpr ⟨hpath, not_le.mpr call.positive⟩)]
    dsimp only
    by_cases hearly : t.busyElapsedSeconds + call.elapsed < lsmNpuMinBusySampleSeconds
    · have hcase := Refreshes.early hpath hearly
      rw [if_pos (.inr hearly), if_pos hearly]
      cases hvalid : t.lastBusyValid with
      | false =>
        rw [hvalid] at hcase
        exact hcase
      | true =>
        rw [hvalid] at hcase
        exact hcase
    · rw [if_neg (not_or.mpr ⟨hpath, hearly⟩), if_neg hearly]
      cases hread : call.files t.busyTimeUs with
      | none => exact .failed hpath hread
      | some current =>
        cases hinitialised : t.busyInitialised with
        | false => exact .first hpath hinitialised
        | true =>
          dsimp only
          rw [Bool.not_true, if_neg Bool.false_ne_true]
          cases hrate : lib.u64CounterRate current t.previousBusyTimeUs (1 / 10000) (t.busyElapsedSeconds + call.elapsed) with
          | none =>
            have hcase := @Refreshes.fell t call hpath current hinitialised
            rw [hinitialised] at hcase
            exact hcase
          | some percent =>
            obtain ⟨hgrown, hshown⟩ := clamped_rate lib hrate
            have hcase := @Refreshes.rate t call hpath current hinitialised hgrown
            rw [hinitialised, ← hshown] at hcase
            exact hcase

theorem refresh_cases {t : LsmNpuTelemetry} {call : Call} (h : utilised t call = false) :
    Refreshes t call (busyReading t call) (busyShown lib t call)
      (lsmNpuTelemetryRefresh lib t call.elapsed call.files).2.1 := by
  have hcases := refreshBusyTime_cases lib t call
  rw [refresh_telemetry, busyShown_eq, refreshUtilization_of_not_utilised lib h, busyReading, h]
  simp only [Bool.false_eq_true, false_or, Bool.false_or]
  refine Eq.mp (congrArg (Refreshes t call _ · _) ?_) hcases
  unfold shownBy
  cases (refreshBusyTime lib t .cleared call.elapsed call.files).2.2.utilizationAvailable with
  | false => rfl
  | true => rfl

theorem refresh_utilised {t : LsmNpuTelemetry} {call : Call} (h : utilised t call = true) :
    (lsmNpuTelemetryRefresh lib t call.elapsed call.files).2.1 = t ∧ busyReading t call = none ∧ busyShown lib t call = none := by
  obtain ⟨value, hvalue⟩ := Option.isSome_iff_exists.mp h
  refine ⟨?_, if_pos (.inl h), ?_⟩
  · rw [refresh_telemetry, refreshUtilization, hvalue]
  · rw [busyShown_eq, h]
    rfl

/-- A call that reads nothing lets the last reading grow older. -/
theorem Keeps.unread {log : List Entry} {t after : LsmNpuTelemetry} (h : Keeps log t) {e : Entry} (hread : e.reading = none)
    (hafter : after = {t with busyElapsedSeconds := after.busyElapsedSeconds})
    (hseconds : e.utilised = false → after.busyElapsedSeconds = t.busyElapsedSeconds + e.elapsed) : Keeps (log ++ [e]) after := by
  rw [hafter]
  refine ⟨fun hinitialised => ?_, h.valid⟩
  obtain ⟨hpath, age, last, hlast, hcounter, hpercent, hage⟩ := h.reading hinitialised
  refine ⟨hpath, age + e.elapsed, last, ?_, hcounter, hpercent, fun hundisturbed => ?_⟩
  · rw [lastReading_concat, hread, hlast]
    rfl
  · obtain ⟨hquiet, hbefore⟩ := undisturbed_concat hread hundisturbed
    exact (hseconds hquiet).trans (congrArg (· + e.elapsed) (hage hbefore))

/-- A call that reads the counter starts anew. -/
theorem Keeps.read {log : List Entry} {after : LsmNpuTelemetry} {e : Entry} {current : Nat} {shown : Option ℚ}
    (hread : e.reading = some ⟨current, shown⟩) (hpath : after.busyTimeUs ≠ []) (hcounter : after.previousBusyTimeUs = current)
    (hseconds : after.busyElapsedSeconds = 0) (hinitialised : after.busyInitialised = true)
    (hshown : after.lastBusyValid = true → shown = some after.lastBusyPercent) : Keeps (log ++ [e]) after := by
  refine ⟨fun _ => ⟨hpath, 0, ⟨current, shown⟩, ?_, hcounter.symm, hshown, fun _ => hseconds⟩, fun _ => hinitialised⟩
  rw [lastReading_concat, hread]

theorem Keeps.refreshes {log : List Entry} {t after : LsmNpuTelemetry} {call : Call} {reading : Option Nat}
    {shown : Option ℚ} (h : Keeps log t) (hcase : Refreshes t call reading shown after) {e : Entry}
    (helapsed : e.elapsed = call.elapsed) (hread : e.reading = reading.map (⟨·, shown⟩)) :
    Keeps (log ++ [e]) after ∧
      (Undisturbed log → ∀ percent, shown = some percent → FromInterval log call.elapsed reading percent) := by
  cases hcase with
  | absent hpath =>
    refine ⟨⟨fun hinitialised => absurd hpath (h.reading hinitialised).1, h.valid⟩, ?_⟩
    rintro - percent ⟨⟩
  | early hpath hearly =>
    refine ⟨h.unread hread rfl fun _ => congrArg (t.busyElapsedSeconds + ·) helapsed.symm, ?_⟩
    intro hundisturbed percent hshown
    split at hshown
    next hvalid =>
      cases hshown
      obtain ⟨-, age, last, hlast, -, hpercent, hage⟩ := h.reading (h.valid hvalid)
      rw [hage hundisturbed] at hearly
      exact ⟨age, last, hlast, hpercent hvalid, hearly⟩
    next => cases hshown
  | failed hpath hfailed =>
    refine ⟨⟨(fun hinitialised => by cases hinitialised), (fun hvalid => by cases hvalid)⟩, ?_⟩
    rintro - percent ⟨⟩
  | first hpath hinitialised =>
    refine ⟨.read hread hpath rfl rfl rfl (fun hvalid => by cases hvalid), ?_⟩
    rintro - percent ⟨⟩
  | fell hpath hinitialised =>
    refine ⟨.read hread hpath rfl rfl hinitialised (fun hvalid => by cases hvalid), ?_⟩
    rintro - percent ⟨⟩
  | rate hpath hinitialised hgrown =>
    refine ⟨.read hread hpath rfl rfl hinitialised fun _ => rfl, ?_⟩
    rintro hundisturbed percent ⟨⟩
    obtain ⟨-, age, last, hlast, hcounter, -, hage⟩ := h.reading hinitialised
    rw [← hcounter] at hgrown ⊢
    rw [hage hundisturbed]
    exact ⟨age, last, hlast, hgrown, rfl⟩

/-- **A call.** It keeps what is kept, and without a disturbance its percentage comes from its interval. -/
theorem Keeps.call {log : List Entry} {t : LsmNpuTelemetry} (h : Keeps log t) (call : Call) :
    Keeps (log ++ [entry lib t call]) (lsmNpuTelemetryRefresh lib t call.elapsed call.files).2.1 ∧
      (Undisturbed log → ∀ percent, busyShown lib t call = some percent →
        FromInterval log call.elapsed (busyReading t call) percent) := by
  cases hutilised : utilised t call with
  | false => exact h.refreshes (refresh_cases lib hutilised) rfl rfl
  | true =>
    obtain ⟨hafter, hreading, hshown⟩ := refresh_utilised lib hutilised
    rw [hafter, hshown]
    refine ⟨h.unread (by rw [entry, hreading]; rfl) rfl fun hquiet => ?_, ?_⟩
    · rw [show (entry lib t call).utilised = utilised t call from rfl, hutilised] at hquiet
      cases hquiet
    · rintro - percent ⟨⟩

theorem afterCalls_concat (attributes : Attributes) (calls : List Call) (call : Call) :
    let s := afterCalls lib attributes calls
    afterCalls lib attributes (calls ++ [call]) =
      ((lsmNpuTelemetryRefresh lib s.1 call.elapsed call.files).2.1, s.2 ++ [entry lib s.1 call]) :=
  List.foldl_append ..

theorem afterCalls_keeps (attributes : Attributes) (calls : List Call) :
    Keeps (afterCalls lib attributes calls).2 (afterCalls lib attributes calls).1 := by
  induction calls using List.reverseRecOn with
  | nil => exact ⟨(fun hinitialised => by cases hinitialised), (fun hvalid => by cases hvalid)⟩
  | append_singleton calls call ih =>
    rw [afterCalls_concat]
    exact (ih.call lib call).1

/-- **The percentage is about its interval.** After any calls, a busy percentage that is shown comes from two readings and
all the time between them, or is one that the last reading gave less than the shortest interval ago, where no call since
the last reading had a percentage of the driver's own. -/
theorem npu_busy_interval (attributes : Attributes) (calls : List Call) (call : Call)
    (hundisturbed : Undisturbed (afterCalls lib attributes calls).2) (percent : ℚ)
    (hshown : busyShown lib (afterCalls lib attributes calls).1 call = some percent) :
    FromInterval (afterCalls lib attributes calls).2 call.elapsed
      (busyReading (afterCalls lib attributes calls).1 call) percent :=
  ((afterCalls_keeps lib attributes calls).call lib call).2 hundisturbed percent hshown

end

/-- An NPU with both attributes. -/
def bothAttributes : Attributes where
  utilization := ascii "u"
  busyTimeUs := ascii "b"

/-- A second with these attributes. -/
def second (utilization busyTimeUs : Option Nat) : Call where
  elapsed := 1
  positive := by decide
  files path := if path = ascii "u" then utilization else busyTimeUs

/-- Two readings one after the other: a quarter of the time between them was busy. -/
theorem npu_busy_quarter : FromInterval (afterCalls .documented bothAttributes [second none (some 0)]).2 1
    (busyReading (afterCalls .documented bothAttributes [second none (some 0)]).1 (second none (some 250000))) 25 :=
  npu_busy_interval .documented bothAttributes [second none (some 0)] (second none (some 250000))
    (show ∀ e ∈ sinceReading (afterCalls .documented bothAttributes [second none (some 0)]).2, e.utilised = false by
      decide +kernel) 25 (by decide +kernel)

/-- A second with a percentage of the driver's own lies between the readings, and the NPU was busy for half of the time:
all of it is shown. -/
theorem lost_interval :
    ¬ ∀ (lib : Library) (attributes : Attributes) (calls : List Call) (call : Call) (percent : ℚ),
      busyShown lib (afterCalls lib attributes calls).1 call = some percent →
        FromInterval (afterCalls lib attributes calls).2 call.elapsed
          (busyReading (afterCalls lib attributes calls).1 call) percent := by
  intro hall
  obtain ⟨age, last, hlast, hpercent⟩ := hall .documented bothAttributes [second none (some 0), second (some 50) none]
    (second none (some 1000000)) 100 (by decide +kernel)
  have hage : (lastReading (afterCalls .documented bothAttributes [second none (some 0), second (some 50) none]).2).map
      (fun reading => (reading.1, reading.2.counter)) = some (1, 0) := by
    decide +kernel
  have hreading : busyReading (afterCalls .documented bothAttributes [second none (some 0), second (some 50) none]).1
      (second none (some 1000000)) = some 1000000 := by
    decide +kernel
  rw [hlast, Option.map_some, Option.some_inj, Prod.mk.injEq] at hage
  obtain ⟨hage, hcounter⟩ : age = 1 ∧ last.counter = 0 := hage
  rw [hreading] at hpercent
  dsimp only at hpercent
  rw [hage, hcounter] at hpercent
  exact absurd hpercent.2 (by decide +kernel)

end SystemMonitor.Hardware.Npu
