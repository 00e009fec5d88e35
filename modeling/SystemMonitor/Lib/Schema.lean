import SystemMonitor.Lib.Last

/-! Settings that are read from the lines of a file.

A line is for at most one setting, and a setting takes the value of a line or refuses it. After
a file each setting has the last value it took (`get_load`), so that it stays in its range
(`load_range`), and a file with one line for each setting restores them all
(`get_load_written`). -/
namespace SystemMonitor.Lib

structure Schema (ι Line State : Type) where
  Value : ι → Type
  get : (i : ι) → State → Value i
  /-- The setting that a line is for. -/
  target : Line → Option ι
  /-- The value that the setting takes from its line. -/
  accept : (i : ι) → Line → Option (Value i)
  load : State → Line → State
  load_self : ∀ s line i, target line = some i → get i (load s line) = (accept i line).getD (get i s)
  load_other : ∀ s line i, target line ≠ some i → get i (load s line) = get i s

namespace Schema
variable {ι Line State : Type} [DecidableEq ι] (S : Schema ι Line State)

/-- The value that a setting takes from a line that may be for another one. -/
def acceptable (i : ι) (line : Line) : Option (S.Value i) := if S.target line = some i then S.accept i line else none

def loadAll (s : State) (lines : List Line) : State := lines.foldl S.load s

/-- One line. -/
theorem get_load_line (i : ι) (s : State) (line : Line) :
    S.get i (S.load s line) = (S.acceptable i line).getD (S.get i s) := by
  rw [acceptable]
  split
  next htarget => exact S.load_self s line i htarget
  next htarget => exact S.load_other s line i htarget

/-- **Each setting has the last value that it took**, and the one it had if it took none. -/
theorem get_load (i : ι) (s : State) (lines : List Line) :
    S.get i (S.loadAll s lines) = (lastOf (S.acceptable i) lines).getD (S.get i s) := by
  induction lines using List.reverseRecOn with
  | nil => rfl
  | append_singleton lines line ih =>
    have hload : S.loadAll s (lines ++ [line]) = S.load (S.loadAll s lines) line := List.foldl_append
    rw [hload, get_load_line, ih, lastOf_concat]
    cases S.acceptable i line with
    | none => rfl
    | some value => rfl

/-- A range that every accepted value lies in is kept. -/
theorem load_range {InRange : (i : ι) → S.Value i → Prop}
    (haccept : ∀ i line value, S.accept i line = some value → InRange i value) {s : State}
    (hs : ∀ i, InRange i (S.get i s)) (lines : List Line) (i : ι) : InRange i (S.get i (S.loadAll s lines)) := by
  rw [get_load]
  cases hlast : lastOf (S.acceptable i) lines with
  | none => exact hs i
  | some value =>
    obtain ⟨line, -, hvalue⟩ := exists_of_lastOf hlast
    rw [acceptable] at hvalue
    split at hvalue
    · exact haccept i line value hvalue
    · cases hvalue

/-- **What is written is restored**, whatever the settings were, and what is not written stays. -/
theorem get_load_written {line : ι → Line} {value : (i : ι) → S.Value i} {written : List ι}
    (htarget : ∀ i ∈ written, S.target (line i) = some i) (haccept : ∀ i ∈ written, S.accept i (line i) = some (value i))
    (s : State) (i : ι) :
    S.get i (S.loadAll s (written.map line)) = if i ∈ written then value i else S.get i s := by
  have hline : ∀ j ∈ written, S.acceptable i (line j) = if h : j = i then some (h ▸ value j) else none := by
    intro j hj
    rw [acceptable, htarget j hj]
    by_cases h : j = i
    · subst h
      rw [if_pos rfl, dif_pos rfl, haccept j hj]
    · rw [if_neg (by simpa using h), dif_neg h]
  rw [get_load]
  split
  next hi =>
    rw [lastOf_eq_some (List.mem_map_of_mem hi) (by rw [hline i hi, dif_pos rfl])]
    · rfl
    · intro other hother c hc
      obtain ⟨j, hj, rfl⟩ := List.mem_map.mp hother
      rw [hline j hj] at hc
      split at hc
      next h =>
        subst h
        exact (Option.some.inj hc).symm
      next => cases hc
  next hi =>
    have hnone : lastOf (S.acceptable i) (written.map line) = none := by
      rw [lastOf, List.getLast?_eq_none_iff, List.filterMap_eq_nil_iff]
      intro other hother
      obtain ⟨j, hj, rfl⟩ := List.mem_map.mp hother
      rw [hline j hj, dif_neg fun h : j = i => hi (h ▸ hj)]
    rw [hnone]
    rfl

end Schema

end SystemMonitor.Lib
