import Mathlib.Data.Rat.Defs
import Mathlib.Algebra.Order.Ring.Rat
import Mathlib.Logic.Function.Basic

/-! A cache whose values expire.

A value is looked up with the time, and with what it would be now; a value that is young enough is
served as it is stored, another one is stored anew. Every value carries the round in which it was
last served, and `sweep` keeps those of one round. `Sound.served`: what is served was right within
the lifetime; `sweep_seen`: after a sweep only what was served in the round is left. -/
namespace SystemMonitor.Lib.Expiry

structure Entry (ν : Type) where
  value : ν
  /-- Zero when there was no clock. -/
  refreshedAt : ℚ
  seen : Nat

abbrev Cache (κ ν : Type) := κ → Option (Entry ν)

variable {κ ν : Type}

def fresh (lifetime now : ℚ) (entry : Entry ν) : Bool :=
  decide (0 < now) && decide (0 < entry.refreshedAt) && decide (entry.refreshedAt ≤ now) &&
    decide (now - entry.refreshedAt < lifetime)

/-- The entry that is served. -/
def entryFor (lifetime now : ℚ) (round : Nat) (resolved : ν) (cache : Cache κ ν) (key : κ) : Entry ν :=
  match (cache key).filter (fresh lifetime now) with
  | some entry => {entry with seen := round}
  | none => ⟨resolved, if 0 < now then now else 0, round⟩

def serve [DecidableEq κ] (lifetime now : ℚ) (round : Nat) (resolved : ν) (cache : Cache κ ν) (key : κ) : ν × Cache κ ν :=
  let entry := entryFor lifetime now round resolved cache key
  (entry.value, Function.update cache key (some entry))

def sweep (round : Nat) (cache : Cache κ ν) : Cache κ ν := fun key => (cache key).filter fun entry => entry.seen = round

/-! ### What is served -/

/-- Every value that has a time was right at that time. -/
def Sound (Right : κ → ℚ → ν → Prop) (cache : Cache κ ν) : Prop :=
  ∀ key entry, cache key = some entry → 0 < entry.refreshedAt → Right key entry.refreshedAt entry.value

theorem sound_empty (Right : κ → ℚ → ν → Prop) : Sound Right fun _ => none := by
  intro key entry hentry
  cases hentry

theorem Sound.mono {Right Right' : κ → ℚ → ν → Prop} {cache : Cache κ ν} (h : Sound Right cache)
    (himp : ∀ key time value, Right key time value → Right' key time value) : Sound Right' cache :=
  fun key entry hentry htime => himp _ _ _ (h key entry hentry htime)

variable {Right : κ → ℚ → ν → Prop} {lifetime now : ℚ} {round : Nat} {resolved : ν} {cache : Cache κ ν}

/-- The entry is a young one of the cache, or what has just been resolved. -/
theorem entryFor_cases (key : κ) :
    (∃ entry, cache key = some entry ∧ 0 < entry.refreshedAt ∧ entry.refreshedAt ≤ now ∧ now - entry.refreshedAt < lifetime ∧
      entryFor lifetime now round resolved cache key = {entry with seen := round}) ∨
    entryFor lifetime now round resolved cache key = ⟨resolved, if 0 < now then now else 0, round⟩ := by
  rw [entryFor]
  cases h : (cache key).filter (fresh lifetime now) with
  | none => exact .inr rfl
  | some entry =>
    obtain ⟨hentry, hfresh⟩ := Option.filter_eq_some_iff.mp h
    simp only [fresh, Bool.and_eq_true, decide_eq_true_eq] at hfresh
    exact .inl ⟨entry, hentry, hfresh.1.1.2, hfresh.1.2, hfresh.2, rfl⟩

/-- **What is served is right now, or was right within the lifetime.** -/
theorem Sound.served [DecidableEq κ] (h : Sound Right cache) (key : κ) :
    (serve lifetime now round resolved cache key).1 = resolved ∨
      ∃ time, time ≤ now ∧ now - time < lifetime ∧ Right key time (serve lifetime now round resolved cache key).1 := by
  rcases @entryFor_cases κ ν lifetime now round resolved cache key with ⟨entry, hentry, hpos, hle, hlt, heq⟩ | heq
  · refine .inr ⟨entry.refreshedAt, hle, hlt, ?_⟩
    rw [serve, heq]
    exact h key entry hentry hpos
  · exact .inl (by rw [serve, heq])

theorem Sound.serve [DecidableEq κ] (h : Sound Right cache) {key : κ} (hright : Right key now resolved) :
    Sound Right (Expiry.serve lifetime now round resolved cache key).2 := by
  intro other entry hother htime
  rw [Expiry.serve] at hother
  dsimp only at hother
  by_cases hkey : other = key
  · subst hkey
    rw [Function.update_self, Option.some.injEq] at hother
    rcases @entryFor_cases κ ν lifetime now round resolved cache other with ⟨kept, hkept, hpos, -, -, heq⟩ | heq
    · rw [heq] at hother
      subst hother
      exact h other kept hkept hpos
    · rw [heq] at hother
      subst hother
      dsimp only at htime ⊢
      split at htime
      · next hnow => rwa [if_pos hnow]
      · exact absurd htime (lt_irrefl 0)
  · rw [Function.update_of_ne hkey] at hother
    exact h other entry hother htime

theorem Sound.sweep (h : Sound Right cache) : Sound Right (Expiry.sweep round cache) :=
  fun key entry hentry => h key entry (Option.filter_eq_some_iff.mp hentry).1

/-! ### What is kept -/

theorem sweep_seen {key : κ} {entry : Entry ν} (h : sweep round cache key = some entry) : entry.seen = round :=
  of_decide_eq_true (Option.filter_eq_some_iff.mp h).2

theorem serve_seen [DecidableEq κ] {key other : κ} {entry : Entry ν}
    (h : (serve lifetime now round resolved cache key).2 other = some entry) :
    other = key ∧ entry.seen = round ∨ cache other = some entry := by
  rw [serve] at h
  dsimp only at h
  by_cases hkey : other = key
  · subst hkey
    rw [Function.update_self, Option.some.injEq] at h
    refine .inl ⟨rfl, ?_⟩
    rcases @entryFor_cases κ ν lifetime now round resolved cache other with ⟨kept, -, -, -, -, heq⟩ | heq
    · rw [← h, heq]
    · rw [← h, heq]
  · rw [Function.update_of_ne hkey] at h
    exact .inr h

end SystemMonitor.Lib.Expiry
