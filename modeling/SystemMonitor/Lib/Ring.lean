import Mathlib.Data.List.DropRight
import Mathlib.Logic.Function.Basic

/-! A circular array of what was pushed last.

The array has a fixed capacity, the place of the next push and a count. It holds the last
items that were pushed (`Holds`), every push keeps that up (`Holds.push`), and read from
its oldest item on it gives them back in order (`Holds.replay`). -/
namespace SystemMonitor.Lib.Ring

variable {α : Type} {capacity next count : Nat} {slots : Nat → α} {pushed : List α}

/-- Item `i` stands in slot `i % capacity`, as long as it has not been overwritten. -/
structure Holds (capacity : Nat) (slots : Nat → α) (next count : Nat) (pushed : List α) : Prop where
  next_eq : next = pushed.length % capacity
  count_eq : count = min capacity pushed.length
  slot : ∀ i (h : i < pushed.length), pushed.length ≤ i + capacity → slots (i % capacity) = pushed[i]

theorem Holds.empty (capacity : Nat) (slots : Nat → α) : Holds capacity slots 0 0 [] :=
  ⟨(Nat.zero_mod capacity).symm, (Nat.min_zero capacity).symm, fun _ h => absurd h (Nat.not_lt_zero _)⟩

/-- Two items that are both there stand in different slots. -/
theorem slot_ne {i n : Nat} (h : i < n) (hnear : n < i + capacity) : i % capacity ≠ n % capacity := by
  intro heq
  have hdvd : capacity ∣ n - i := Nat.dvd_of_mod_eq_zero (Nat.sub_mod_eq_zero_of_mod_eq heq.symm)
  have hle := Nat.le_of_dvd (Nat.sub_pos_of_lt h) hdvd
  omega

theorem Holds.push (h : Holds capacity slots next count pushed) (a : α) :
    Holds capacity (Function.update slots next a) ((next + 1) % capacity)
      (if count < capacity then count + 1 else count) (pushed ++ [a]) := by
  refine ⟨?_, ?_, ?_⟩
  · rw [h.next_eq, Nat.mod_add_mod, List.length_append, List.length_singleton]
  · have hcount := h.count_eq
    rw [List.length_append, List.length_singleton]
    split <;> omega
  · intro i hi hnear
    rw [List.length_append, List.length_singleton] at hi hnear
    rcases Nat.lt_or_eq_of_le (Nat.le_of_lt_succ hi) with hlt | rfl
    · have hne : i % capacity ≠ next := h.next_eq ▸ slot_ne hlt (by omega)
      rw [Function.update_of_ne hne, List.getElem_append_left hlt]
      exact h.slot i hlt (by omega)
    · rw [h.next_eq, Function.update_self, List.getElem_concat_length rfl]

/-- The slot of the oldest item, counted back from the next push. -/
theorem Holds.oldest (h : Holds capacity slots next count pushed) :
    (next + capacity - count) % capacity = if count = capacity then next else 0 := by
  have hcount := h.count_eq
  split
  next hfull =>
    rw [hfull, Nat.add_sub_cancel, h.next_eq, Nat.mod_mod]
  next hroom =>
    have hlt : pushed.length < capacity := by omega
    have hnext : next = count := by
      rw [h.next_eq, Nat.mod_eq_of_lt hlt]
      omega
    rw [hnext, Nat.add_sub_cancel_left, Nat.mod_self]

/-- **Read from the oldest item on, the array is the last items that were pushed.** -/
theorem Holds.replay (h : Holds capacity slots next count pushed) :
    (List.range count).map (fun offset => slots (((if count = capacity then next else 0) + offset) % capacity)) =
      pushed.rtake capacity := by
  have hcount := h.count_eq
  apply List.ext_getElem
  · rw [List.length_map, List.length_range, List.rtake, List.length_drop]
    omega
  · intro k hk hk'
    rw [List.length_map, List.length_range] at hk
    have hlt : pushed.length - capacity + k < pushed.length := by omega
    have hslot := h.slot (pushed.length - capacity + k) hlt (by omega)
    have hindex : ((if count = capacity then next else 0) + k) % capacity =
        (pushed.length - capacity + k) % capacity := by
      split
      · have hle : capacity ≤ pushed.length := by omega
        have hwrap : pushed.length + k = pushed.length - capacity + k + capacity := by omega
        rw [h.next_eq, Nat.mod_add_mod, hwrap, Nat.add_mod_right]
      · have hzero : pushed.length - capacity = 0 := by omega
        rw [hzero]
    simp only [List.getElem_map, List.getElem_range, List.rtake, List.getElem_drop, hindex]
    exact hslot

end SystemMonitor.Lib.Ring
