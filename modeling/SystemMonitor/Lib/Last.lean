import Mathlib.Data.List.Basic
import Mathlib.Data.List.Induction

/-! The last of several values, and an array that is filled in passing.

A loop over records that stores what it finds, later finds over earlier ones,
leaves the last value found. -/
namespace SystemMonitor.Lib

variable {α β : Type}

/-- The last element that has a value has this one. -/
def lastOf (f : α → Option β) (l : List α) : Option β := (l.filterMap f).getLast?

theorem lastOf_concat (f : α → Option β) (l : List α) (a : α) : lastOf f (l ++ [a]) = (f a).or (lastOf f l) := by
  unfold lastOf
  rw [List.filterMap_append]
  cases h : f a with
  | none => simp [h]
  | some b => simp [h]

theorem lastOf_congr {f g : α → Option β} {l : List α} (h : ∀ a ∈ l, f a = g a) : lastOf f l = lastOf g l := by
  unfold lastOf
  rw [List.filterMap_congr h]

theorem exists_of_lastOf {f : α → Option β} {l : List α} {b : β} (h : lastOf f l = some b) : ∃ a ∈ l, f a = some b :=
  List.mem_filterMap.mp (List.mem_of_getLast? h)

/-- Where every element that has a value has the same, that is the last. -/
theorem lastOf_eq_some {f : α → Option β} {l : List α} {a : α} {b : β} (ha : a ∈ l) (hb : f a = some b)
    (hall : ∀ a ∈ l, ∀ c, f a = some c → c = b) : lastOf f l = some b := by
  have hmem : b ∈ l.filterMap f := List.mem_filterMap.mpr ⟨a, ha, hb⟩
  have hlast := List.getLast?_eq_some_getLast (List.ne_nil_of_mem hmem)
  obtain ⟨a', ha', hc⟩ := exists_of_lastOf (f := f) (l := l) hlast
  rw [lastOf, hlast, hall a' ha' _ hc]

/-- An array of `n` places, where each element that has an index overwrites its place. -/
def fill (index : α → Option Nat) (value : α → β) (n : Nat) (l : List α) : List (Option β) :=
  l.foldl (fun places a =>
    match index a with
    | some i => places.set i (some (value a))
    | none => places) (List.replicate n none)

theorem fill_concat (index : α → Option Nat) (value : α → β) (n : Nat) (l : List α) (a : α) :
    fill index value n (l ++ [a]) =
      match index a with
      | some i => (fill index value n l).set i (some (value a))
      | none => fill index value n l := by
  unfold fill
  rw [List.foldl_append]
  rfl

theorem length_fill (index : α → Option Nat) (value : α → β) (n : Nat) (l : List α) :
    (fill index value n l).length = n := by
  induction l using List.reverseRecOn with
  | nil => exact List.length_replicate
  | append_singleton l a ih =>
    rw [fill_concat]
    split
    · rw [List.length_set, ih]
    · exact ih

/-- Each place holds the last value written to it. -/
theorem getElem?_fill (index : α → Option Nat) (value : α → β) {n i : Nat} (hi : i < n) (l : List α) :
    (fill index value n l)[i]? = some (lastOf (fun a => if index a = some i then some (value a) else none) l) := by
  induction l using List.reverseRecOn with
  | nil => simp [fill, lastOf, hi]
  | append_singleton l a ih =>
    rw [fill_concat, lastOf_concat]
    cases h : index a with
    | none => simp [ih]
    | some j =>
      simp only [Option.some.injEq]
      by_cases hsame : j = i
      · rw [hsame, if_pos rfl, List.getElem?_set_self (by rw [length_fill]; exact hi)]
        rfl
      · rw [if_neg hsame, List.getElem?_set_ne hsame, ih]
        rfl

end SystemMonitor.Lib
