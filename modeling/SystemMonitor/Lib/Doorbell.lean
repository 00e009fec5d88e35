import SystemMonitor.Lib.Machine

/-! An auto-reset event that wakes a waiter for a request.

A caller raises the request under a lock and rings afterwards, so the two are not
one step; others may ring without a request. A wait that returns consumes the
ring, and only then does the waiter look at the request, under the lock again.
`Doorbell.heard`: a waiter never sleeps on a request without a ring on its way. -/
namespace SystemMonitor.Lib

/-- `woken`: a ring is consumed and the request not yet looked at. -/
inductive Waiter where
  | asleep
  | woken
  | busy
  | gone
  deriving DecidableEq

structure Doorbell where
  requested : Bool
  signalled : Bool
  /-- Callers on their way to ring. -/
  ringing : Nat
  waiter : Waiter
  deriving DecidableEq

inductive DoorbellEvent where
  | raise
  /-- A caller that raises nothing is on its way. -/
  | approach
  | ring
  | wake
  | look
  | rest
  | drop
  | leave
  /-- A new waiter behind a new event. -/
  | install

namespace Doorbell

def next (d : Doorbell) : DoorbellEvent → Option Doorbell
  | .raise => some {d with requested := true, ringing := d.ringing + 1}
  | .approach => some {d with ringing := d.ringing + 1}
  | .ring => if 0 < d.ringing then some {d with signalled := true, ringing := d.ringing - 1} else none
  | .wake =>
    if d.waiter = .asleep ∧ d.signalled = true then some {d with signalled := false, waiter := .woken} else none
  | .look => if d.waiter = .woken then some {d with requested := false, waiter := .busy} else none
  | .rest =>
    if d.waiter = .busy ∨ d.waiter = .woken ∧ d.requested = false then some {d with waiter := .asleep} else none
  | .drop => some {d with requested := false}
  | .leave => some {d with waiter := .gone}
  | .install =>
    if d.waiter = .gone then some {d with requested := false, signalled := false, waiter := .busy} else none

def machine : Machine Doorbell DoorbellEvent := ⟨next⟩

/-- A request that nobody has looked at will be. -/
def Heard (d : Doorbell) : Prop :=
  d.requested = true → d.waiter = .asleep ∨ d.waiter = .busy → d.signalled = true ∨ 0 < d.ringing

theorem Heard.step {d d' : Doorbell} {e : DoorbellEvent} (h : d.Heard) (hstep : machine.step d e = some d') :
    d'.Heard := by
  intro hrequested hwaiter
  cases e with
  | raise =>
    cases hstep
    exact Or.inr (Nat.succ_pos _)
  | approach =>
    cases hstep
    exact Or.inr (Nat.succ_pos _)
  | ring =>
    simp only [machine, next] at hstep
    split at hstep
    · cases hstep
      exact Or.inl rfl
    · cases hstep
  | wake =>
    simp only [machine, next] at hstep
    split at hstep
    · cases hstep
      rcases hwaiter with hwaiter | hwaiter <;> cases hwaiter
    · cases hstep
  | look =>
    simp only [machine, next] at hstep
    split at hstep
    · cases hstep
      cases hrequested
    · cases hstep
  | rest =>
    simp only [machine, next] at hstep
    split at hstep
    · rename_i hfrom
      cases hstep
      rcases hfrom with hbusy | ⟨-, hnone⟩
      · exact h hrequested (Or.inr hbusy)
      · rw [hnone] at hrequested
        cases hrequested
    · cases hstep
  | drop =>
    cases hstep
    cases hrequested
  | leave =>
    cases hstep
    rcases hwaiter with hwaiter | hwaiter <;> cases hwaiter
  | install =>
    simp only [machine, next] at hstep
    split at hstep
    · cases hstep
      cases hrequested
    · cases hstep

/-- **Nobody sleeps on a request.** -/
theorem heard {d d' : Doorbell} {events : List DoorbellEvent} (h : d.Heard) (hrun : machine.run d events = some d') :
    d'.Heard :=
  machine.run_preserves Heard (fun _ _ _ h hstep => h.step hstep) h hrun

end Doorbell

end SystemMonitor.Lib
