import Mathlib.Data.Nat.ModEq
import Mathlib.Logic.Function.Basic
import Mathlib.Data.List.Basic

/-! A circular array that is pushed at either end.

The array is read from its head on, and shows a list of a fixed length (`Shows`). A push at
the newer end drops the item at the older end, and the other way round, and the array
shows the list that is left (`Shows.pushLast`, `Shows.pushFirst`). -/
namespace SystemMonitor.Lib.Window

variable {α : Type}

/-- Pushed at the end; the first item is dropped. -/
def pushLast (l : List α) (a : α) : List α := l.tail ++ [a]

/-- Pushed at the front; the last item is dropped. -/
def pushFirst (l : List α) (a : α) : List α := a :: l.dropLast

theorem length_pushLast {l : List α} (h : 0 < l.length) (a : α) : (pushLast l a).length = l.length := by
  rw [pushLast, List.length_append, List.length_tail, List.length_singleton]
  omega

theorem length_pushFirst {l : List α} (h : 0 < l.length) (a : α) : (pushFirst l a).length = l.length := by
  rw [pushFirst, List.length_cons, List.length_dropLast]
  omega

theorem map_pushLast {β : Type} (f : α → β) (l : List α) (a : α) : (pushLast l a).map f = pushLast (l.map f) (f a) := by
  rw [pushLast, pushLast, List.map_append, List.map_tail, List.map_singleton]

theorem map_pushFirst {β : Type} (f : α → β) (l : List α) (a : α) :
    (pushFirst l a).map f = pushFirst (l.map f) (f a) := by
  rw [pushFirst, pushFirst, List.map_cons, List.map_dropLast]

/-- From its head on, the array is the list. -/
structure Shows (capacity : Nat) (slots : Nat → α) (head : Nat) (l : List α) : Prop where
  length_eq : l.length = capacity
  head_lt : head < capacity
  slot : ∀ i (h : i < l.length), slots ((head + i) % capacity) = l[i]

variable {capacity head : Nat} {slots : Nat → α} {l : List α}

/-- Two places of the list stand in different slots. -/
theorem slot_inj {i j : Nat} (hi : i < capacity) (hj : j < capacity) (h : (head + i) % capacity = (head + j) % capacity) :
    i = j := by
  have hmod : i ≡ j [MOD capacity] := Nat.ModEq.add_left_cancel' head h
  rwa [Nat.ModEq, Nat.mod_eq_of_lt hi, Nat.mod_eq_of_lt hj] at hmod

theorem Shows.getElem? (h : Shows capacity slots head l) {i : Nat} (hi : i < capacity) :
    l[i]? = some (slots ((head + i) % capacity)) := by
  have hlt : i < l.length := by rwa [h.length_eq]
  rw [List.getElem?_eq_getElem hlt, h.slot i hlt]

theorem Shows.pushLast (h : Shows capacity slots head l) (a : α) :
    Shows capacity (Function.update slots head a) ((head + 1) % capacity) (pushLast l a) := by
  have hpos : 0 < capacity := Nat.zero_lt_of_lt h.head_lt
  have hlength := length_pushLast (h.length_eq ▸ hpos) a
  refine ⟨hlength.trans h.length_eq, Nat.mod_lt _ hpos, fun i hi => ?_⟩
  rw [hlength, h.length_eq] at hi
  have hindex : ((head + 1) % capacity + i) % capacity = (head + (i + 1)) % capacity := by
    rw [Nat.mod_add_mod, Nat.add_assoc, Nat.add_comm 1 i]
  rw [hindex]
  have htail : l.tail.length = capacity - 1 := by rw [List.length_tail, h.length_eq]
  by_cases hlast : i = capacity - 1
  · have hslot : (head + (i + 1)) % capacity = head := by
      rw [hlast, Nat.sub_add_cancel hpos, Nat.add_mod_right, Nat.mod_eq_of_lt h.head_lt]
    have hitem : i = l.tail.length := hlast.trans htail.symm
    subst hitem
    rw [hslot, Function.update_self]
    exact (List.getElem_concat_length rfl _).symm
  · have hlt : i + 1 < capacity := by omega
    have hne : (head + (i + 1)) % capacity ≠ head := by
      intro heq
      have hzero : (head + (i + 1)) % capacity = (head + 0) % capacity := by
        rw [heq, Nat.add_zero, Nat.mod_eq_of_lt h.head_lt]
      exact absurd (slot_inj hlt hpos hzero) (Nat.succ_ne_zero i)
    have hi' : i < l.tail.length := by omega
    rw [Function.update_of_ne hne, h.slot (i + 1) (by rw [h.length_eq]; exact hlt)]
    simp only [Window.pushLast, List.getElem_append_left hi', List.getElem_tail]

theorem Shows.pushFirst (h : Shows capacity slots head l) (a : α) :
    Shows capacity (Function.update slots ((head + capacity - 1) % capacity) a) ((head + capacity - 1) % capacity)
      (pushFirst l a) := by
  have hpos : 0 < capacity := Nat.zero_lt_of_lt h.head_lt
  have hlength := length_pushFirst (h.length_eq ▸ hpos) a
  have hhead : (head + capacity - 1) % capacity < capacity := Nat.mod_lt _ hpos
  refine ⟨hlength.trans h.length_eq, hhead, fun i hi => ?_⟩
  rw [hlength, h.length_eq] at hi
  cases i with
  | zero =>
    rw [Nat.add_zero, Nat.mod_mod, Function.update_self]
    rfl
  | succ i =>
    have hne : ((head + capacity - 1) % capacity + (i + 1)) % capacity ≠ (head + capacity - 1) % capacity := by
      intro heq
      have hzero : ((head + capacity - 1) % capacity + (i + 1)) % capacity =
          ((head + capacity - 1) % capacity + 0) % capacity := by
        rw [heq, Nat.add_zero, Nat.mod_mod]
      exact absurd (slot_inj hi hpos hzero) (Nat.succ_ne_zero i)
    have hindex : ((head + capacity - 1) % capacity + (i + 1)) % capacity = (head + i) % capacity := by
      have hsum : head + capacity - 1 + (i + 1) = head + i + capacity := by omega
      rw [Nat.mod_add_mod, hsum, Nat.add_mod_right]
    have hi' : i < l.dropLast.length := by
      rw [List.length_dropLast, h.length_eq]
      omega
    rw [Function.update_of_ne hne, hindex, h.slot i (by rw [h.length_eq]; omega)]
    simp only [Window.pushFirst, List.getElem_cons_succ, List.getElem_dropLast]

end SystemMonitor.Lib.Window
