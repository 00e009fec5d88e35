import Mathlib.Order.Lattice

/-! Lower-bound search over an indexed sequence.

`keyAt` reads the key at an index, as an array access does; only indices below
the searched count are ever read. The loop halves `[low, high)`, so a fuel of the
searched count is enough, and being structural in the fuel it also runs. -/
namespace SystemMonitor.Lib

variable {κ : Type} [LinearOrder κ]

def lowerBound (keyAt : Nat → κ) (target : κ) : Nat → Nat → Nat → Nat
  | 0, low, _ => low
  | fuel + 1, low, high =>
    if low < high then
      let middle := low + (high - low) / 2
      if keyAt middle < target then lowerBound keyAt target fuel (middle + 1) high
      else lowerBound keyAt target fuel low middle
    else low

/-- Keys strictly increase below `count`. -/
def Ascending (keyAt : Nat → κ) (count : Nat) : Prop :=
  ∀ i j, i < j → j < count → keyAt i < keyAt j

/-- Keys do not decrease below `count`. -/
def Sorted (keyAt : Nat → κ) (count : Nat) : Prop :=
  ∀ i j, i ≤ j → j < count → keyAt i ≤ keyAt j

theorem Ascending.sorted {keyAt : Nat → κ} {count : Nat} (h : Ascending keyAt count) : Sorted keyAt count := by
  intro i j hij hj
  rcases Nat.eq_or_lt_of_le hij with rfl | hlt
  · exact le_refl _
  · exact le_of_lt (h i j hlt hj)

/-- The loop's invariant: what is below `low` is below the target, what is from
`high` on is not. -/
theorem lowerBound_loop (keyAt : Nat → κ) (target : κ) {count : Nat} (hsorted : Sorted keyAt count)
    (fuel low high : Nat) (hfuel : high - low ≤ fuel) (hle : low ≤ high) (hhigh : high ≤ count)
    (hbelow : ∀ i, i < low → keyAt i < target)
    (habove : ∀ i, high ≤ i → i < count → target ≤ keyAt i) :
    lowerBound keyAt target fuel low high ≤ count ∧
    (∀ i, i < lowerBound keyAt target fuel low high → keyAt i < target) ∧
    (∀ i, lowerBound keyAt target fuel low high ≤ i → i < count → target ≤ keyAt i) := by
  induction fuel generalizing low high with
  | zero =>
    have hsame : low = high := by omega
    subst hsame
    exact ⟨hhigh, hbelow, habove⟩
  | succ fuel ih =>
    simp only [lowerBound]
    by_cases hlt : low < high
    · rw [if_pos hlt]
      by_cases hmid : keyAt (low + (high - low) / 2) < target
      · rw [if_pos hmid]
        apply ih _ _ (by omega) (by omega) hhigh _ habove
        intro i hi
        exact lt_of_le_of_lt (hsorted _ _ (by omega) (by omega)) hmid
      · rw [if_neg hmid]
        apply ih _ _ (by omega) (by omega) (by omega) hbelow
        intro i hi hic
        exact le_trans (not_lt.mp hmid) (hsorted _ _ hi hic)
    · rw [if_neg hlt]
      have hsame : low = high := by omega
      subst hsame
      exact ⟨hhigh, hbelow, habove⟩

/-- A search of a sorted sequence ends at the first place that is not below the target. -/
theorem lowerBound_first (keyAt : Nat → κ) (target : κ) {count : Nat} (hsorted : Sorted keyAt count) {i : Nat}
    (hi : i < lowerBound keyAt target count 0 count) : keyAt i < target :=
  (lowerBound_loop keyAt target hsorted count 0 count (by omega) (by omega) (Nat.le_refl _)
    (fun i h => absurd h (Nat.not_lt_zero i)) (fun i h h' => absurd h (by omega))).2.1 i hi

/-- A search of the whole sequence finds a key exactly when it is there. -/
theorem lowerBound_hit (keyAt : Nat → κ) (target : κ) {count : Nat} (hasc : Ascending keyAt count)
    {i : Nat} (hi : i < count) (hkey : keyAt i = target) : lowerBound keyAt target count 0 count = i := by
  obtain ⟨_, hbelow, habove⟩ := lowerBound_loop keyAt target hasc.sorted count 0 count (by omega)
    (by omega) (Nat.le_refl _) (fun i h => absurd h (Nat.not_lt_zero i)) (fun i h h' => absurd h (by omega))
  generalize lowerBound keyAt target count 0 count = r at hbelow habove ⊢
  subst hkey
  rcases Nat.lt_trichotomy r i with hlt | rfl | hgt
  · exact absurd (hasc r i hlt hi) (not_lt.mpr (habove r (Nat.le_refl r) (by omega)))
  · rfl
  · exact absurd (hbelow i hgt) (lt_irrefl _)

end SystemMonitor.Lib
