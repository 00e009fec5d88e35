import Mathlib.Algebra.Order.Field.Rat
import Mathlib.Data.List.DropRight

/-! Attempts that are spaced out, after failures by a delay of their own.

What should be waited for is a function of the log of all attempts (`Spaced`). A scheduler
keeps three numbers instead: the time of the last success, a failure counter that stops at
a limit, and the time before which nothing is retried. `Keeps.record`: they follow the log,
so what the scheduler allows is spaced (`Keeps.spaced`). -/
namespace SystemMonitor.Lib.Backoff

structure Attempt where
  time : ℚ
  succeeded : Bool
  deriving DecidableEq

/-- The failures since the last success. -/
def failureCount (log : List Attempt) : Nat := (log.rtakeWhile fun a => !a.succeeded).length

theorem failureCount_concat (log : List Attempt) (a : Attempt) :
    failureCount (log ++ [a]) = if a.succeeded then 0 else failureCount log + 1 := by
  rw [failureCount, List.rtakeWhile_concat]
  cases a.succeeded with
  | true => rfl
  | false => exact List.length_append

/-- The time of the last success, or else the beginning. -/
def successTime (start : ℚ) (log : List Attempt) : ℚ :=
  log.foldl (fun time a => if a.succeeded then a.time else time) start

theorem successTime_concat (start : ℚ) (log : List Attempt) (a : Attempt) :
    successTime start (log ++ [a]) = if a.succeeded then a.time else successTime start log :=
  List.foldl_concat ..

/-- How long to wait. A counter that stops at the limit tells the delays apart. -/
structure Policy where
  interval : ℚ
  delay : Nat → ℚ
  limit : Nat
  settles : ∀ k, delay (min k limit) = delay k

namespace Policy
variable (policy : Policy)

/-- The wait after these attempts. -/
def wait (log : List Attempt) : ℚ := if failureCount log = 0 then policy.interval else policy.delay (failureCount log)

/-- An attempt at this time has waited long enough after the last one. -/
def Spaced (log : List Attempt) (now : ℚ) : Prop := ∀ last ∈ log.getLast?, last.time + policy.wait log ≤ now

end Policy

/-- What a scheduler keeps of its attempts. -/
structure Schedule where
  lastSuccess : ℚ
  failures : Nat
  notBefore : ℚ

def Schedule.record (policy : Policy) (s : Schedule) (a : Attempt) : Schedule :=
  if a.succeeded then ⟨a.time, 0, 0⟩
  else
    let failures := if s.failures < policy.limit then s.failures + 1 else s.failures
    ⟨s.lastSuccess, failures, a.time + policy.delay failures⟩

/-- The three numbers are those of the log. -/
structure Keeps (policy : Policy) (start : ℚ) (log : List Attempt) (s : Schedule) : Prop where
  lastSuccess : s.lastSuccess = successTime start log
  failures : s.failures = min (failureCount log) policy.limit
  notBefore : ∀ last ∈ log.getLast?, last.succeeded = false → s.notBefore = last.time + policy.delay (failureCount log)

section
variable {policy : Policy} {start : ℚ} {log : List Attempt} {s : Schedule}

theorem keeps_nil (policy : Policy) (start notBefore : ℚ) : Keeps policy start [] ⟨start, 0, notBefore⟩ where
  lastSuccess := rfl
  failures := (Nat.zero_min _).symm
  notBefore := by
    intro last hlast
    cases hlast

theorem Keeps.record (h : Keeps policy start log s) (a : Attempt) :
    Keeps policy start (log ++ [a]) (s.record policy a) := by
  have hfailures := h.failures
  unfold Schedule.record
  cases ha : a.succeeded with
  | true =>
    refine ⟨?_, ?_, ?_⟩
    · rw [successTime_concat, ha, if_pos rfl, if_pos rfl]
    · rw [failureCount_concat, ha, if_pos rfl, if_pos rfl, Nat.zero_min]
    · intro last hlast hfailed
      rw [List.getLast?_concat] at hlast
      cases hlast
      rw [ha] at hfailed
      cases hfailed
  | false =>
    have hcount : (if s.failures < policy.limit then s.failures + 1 else s.failures) =
        min (failureCount log + 1) policy.limit := by
      split <;> omega
    refine ⟨?_, ?_, ?_⟩
    · rw [successTime_concat, ha, if_neg Bool.false_ne_true, if_neg Bool.false_ne_true]
      exact h.lastSuccess
    · rw [failureCount_concat, ha, if_neg Bool.false_ne_true, if_neg Bool.false_ne_true]
      exact hcount
    · intro last hlast _
      rw [List.getLast?_concat] at hlast
      cases hlast
      rw [failureCount_concat, ha, if_neg Bool.false_ne_true, if_neg Bool.false_ne_true, hcount]
      exact congrArg (a.time + ·) (policy.settles _)

/-- The counter tells whether the last attempt failed. -/
theorem Keeps.failures_eq_zero (h : Keeps policy start log s) (hlimit : 0 < policy.limit) :
    s.failures = 0 ↔ failureCount log = 0 := by
  rw [h.failures]
  omega

theorem failureCount_of_last {last : Attempt} (hlast : log.getLast? = some last) :
    failureCount log = 0 ↔ last.succeeded = true := by
  obtain ⟨init, rfl⟩ := List.getLast?_eq_some_iff.mp hlast
  rw [failureCount_concat]
  cases last.succeeded with
  | true => exact ⟨fun _ => rfl, fun _ => rfl⟩
  | false =>
    constructor
    · intro h
      exact absurd h (Nat.succ_ne_zero _)
    · intro h
      cases h

theorem successTime_of_last {last : Attempt} (hlast : log.getLast? = some last) (h : last.succeeded = true) :
    successTime start log = last.time := by
  obtain ⟨init, rfl⟩ := List.getLast?_eq_some_iff.mp hlast
  rw [successTime_concat, if_pos h]

/-- What the kept numbers allow is spaced: a retry not before its time, and otherwise the
interval after the last success. -/
theorem Keeps.spaced (h : Keeps policy start log s) (hlimit : 0 < policy.limit) {now : ℚ}
    (hallowed : if s.failures = 0 then s.lastSuccess + policy.interval ≤ now else s.notBefore ≤ now) :
    policy.Spaced log now := by
  intro last hlast
  have hzero := failureCount_of_last hlast
  rw [Policy.wait]
  cases hsucceeded : last.succeeded with
  | true =>
    have hnone := hzero.mpr hsucceeded
    rw [if_pos ((h.failures_eq_zero hlimit).mpr hnone), h.lastSuccess, successTime_of_last hlast hsucceeded] at hallowed
    rw [if_pos hnone]
    exact hallowed
  | false =>
    have hsome : failureCount log ≠ 0 := fun hnone => Bool.false_ne_true (hsucceeded.symm.trans (hzero.mp hnone))
    rw [if_neg fun hcount => hsome ((h.failures_eq_zero hlimit).mp hcount), h.notBefore last hlast hsucceeded] at hallowed
    rw [if_neg hsome]
    exact hallowed

end

end SystemMonitor.Lib.Backoff
