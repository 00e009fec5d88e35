import Mathlib.Data.List.Induction
import Mathlib.Data.List.Nodup
import Mathlib.Data.List.Perm.Basic
import Mathlib.Algebra.BigOperators.Group.List.Basic

/-! Grouping a list by a key, and an array of objects that is reused for it.

The keys of a list stand in the order of their first elements (`keysOf`), and each has
its members (`membersOf`). An element more either joins the members of its key or begins
a new one (`keysOf_concat`, `membersOf_concat`), and adds to what they amount to
(`totalOf_concat`). An index finds the keys of an array at their
places (`Indexes`), and goes on doing so when a new key is appended. An array from which an element is removed
by putting the last one in its place keeps its other elements (`swapRemove_perm`). -/
namespace SystemMonitor.Lib

variable {α κ : Type} [DecidableEq κ] (key : α → κ)

/-- The keys, each once, in the order in which they first occur. -/
def keysOf (l : List α) : List κ := (l.map key).eraseDups

def membersOf (l : List α) (k : κ) : List α := l.filter fun a => key a = k

variable {key}

theorem mem_keysOf {l : List α} {k : κ} : k ∈ keysOf key l ↔ ∃ a ∈ l, key a = k := by
  rw [keysOf, List.mem_eraseDups, List.mem_map]

theorem membersOf_eq_nil {l : List α} {k : κ} : membersOf key l k = [] ↔ k ∉ keysOf key l := by
  simp [membersOf, mem_keysOf, List.filter_eq_nil_iff]

theorem keysOf_concat (l : List α) (a : α) :
    keysOf key (l ++ [a]) = if key a ∈ keysOf key l then keysOf key l else keysOf key l ++ [key a] := by
  have hmem : key a ∈ keysOf key l ↔ (l.map key).contains (key a) = true := by
    rw [List.contains_iff_mem, keysOf, List.mem_eraseDups]
  rw [keysOf, List.map_append, List.eraseDups_append, ← keysOf]
  split
  · rename_i h
    have hremove : ([a].map key).removeAll (l.map key) = [] := by
      simpa [List.removeAll, mem_keysOf] using h
    rw [hremove, List.eraseDups_nil, List.append_nil]
  · rename_i h
    have hremove : ([a].map key).removeAll (l.map key) = [key a] := by
      simpa [List.removeAll, mem_keysOf] using h
    rw [hremove]
    rfl

theorem nodup_keysOf (l : List α) : (keysOf key l).Nodup := by
  induction l using List.reverseRecOn with
  | nil => exact List.nodup_nil
  | append_singleton l a ih =>
    rw [keysOf_concat]
    split
    · exact ih
    · rename_i h
      exact List.nodup_append.mpr ⟨ih, List.nodup_singleton _, fun x hx y hy hxy =>
        h (List.mem_singleton.mp hy ▸ hxy ▸ hx)⟩

theorem membersOf_concat (l : List α) (a : α) (k : κ) :
    membersOf key (l ++ [a]) k = if key a = k then membersOf key l k ++ [a] else membersOf key l k := by
  rw [membersOf, List.filter_append, ← membersOf]
  split
  · rename_i h
    simp [h]
  · rename_i h
    simp [h]

/-- Elements that are added take no key away. -/
theorem length_keysOf_append (l more : List α) : (keysOf key l).length ≤ (keysOf key (l ++ more)).length := by
  induction more using List.reverseRecOn with
  | nil => exact Nat.le_of_eq (by rw [List.append_nil])
  | append_singleton more a ih =>
    rw [← List.append_assoc, keysOf_concat]
    split
    · exact ih
    · rw [List.length_append]
      exact Nat.le_add_right_of_le ih

theorem keysOf_perm {l m : List α} (h : l.Perm m) : (keysOf key l).Perm (keysOf key m) := by
  refine (List.perm_ext_iff_of_nodup (nodup_keysOf l) (nodup_keysOf m)).mpr fun k => ?_
  rw [mem_keysOf, mem_keysOf]
  exact exists_congr fun a => and_congr_left' h.mem_iff

/-! ### Totals -/

section
variable {M : Type} [AddCommMonoid M] (key) (amount : α → M)

/-- What the members of a key amount to. -/
def totalOf (l : List α) (k : κ) : M := ((membersOf key l k).map amount).sum

variable {key}

theorem totalOf_concat (key : α → κ) (amount : α → M) (l : List α) (a : α) (k : κ) :
    totalOf key amount (l ++ [a]) k = if key a = k then totalOf key amount l k + amount a else totalOf key amount l k := by
  unfold totalOf
  rw [membersOf_concat]
  split
  · rw [List.map_append, List.sum_append]
    simp
  · rfl

theorem totalOf_flatMap {β : Type} (key : α → κ) (amount : α → M) (f : β → List α) (l : List β) (k : κ) :
    totalOf key amount (l.flatMap f) k = (l.map fun b => totalOf key amount (f b) k).sum := by
  induction l with
  | nil => rfl
  | cons b rest ih =>
    rw [List.map_cons, List.sum_cons, ← ih, List.flatMap_cons, totalOf, membersOf, List.filter_append, List.map_append,
      List.sum_append]
    rfl

theorem totalOf_new {l : List α} {k : κ} (h : k ∉ keysOf key l) : totalOf key amount l k = 0 := by
  rw [totalOf, membersOf_eq_nil.mpr h]
  rfl

theorem totalOf_perm {l m : List α} (h : l.Perm m) (k : κ) : totalOf key amount l k = totalOf key amount m k :=
  ((h.filter _).map amount).sum_eq

end

/-! ### An index of an array -/

/-- The index finds each key of the array at its place, and no other key. -/
def Indexes (index : κ → Option Nat) (keys : List κ) : Prop := ∀ k place, index k = some place ↔ keys[place]? = some k

namespace Indexes
variable {index : κ → Option Nat} {keys : List κ}

omit [DecidableEq κ] in
theorem nodup (h : Indexes index keys) : keys.Nodup := by
  rw [List.nodup_iff_injective_getElem]
  intro i j heq
  have hi := (h _ i.1).mpr (List.getElem?_eq_getElem i.2)
  have hj := (h _ j.1).mpr (List.getElem?_eq_getElem j.2)
  dsimp only at heq
  rw [heq, hj] at hi
  exact Fin.ext (Option.some.inj hi).symm

omit [DecidableEq κ] in
theorem eq_none_iff (h : Indexes index keys) {k : κ} : index k = none ↔ k ∉ keys := by
  rw [List.mem_iff_getElem?, Option.eq_none_iff_forall_ne_some, not_exists]
  exact forall_congr' fun place => not_congr (h k place)

/-- A new key is indexed at the end. -/
theorem concat (h : Indexes index keys) {a : κ} (ha : a ∉ keys) :
    Indexes (Function.update index a (some keys.length)) (keys ++ [a]) := by
  intro k place
  by_cases hk : k = a
  · subst hk
    rw [Function.update_self, Option.some_inj]
    constructor
    · intro hplace
      rw [← hplace, List.getElem?_concat_length]
    · intro hget
      rcases Nat.lt_trichotomy place keys.length with hlt | heq | hgt
      · rw [List.getElem?_append_left hlt] at hget
        exact absurd (List.mem_of_getElem? hget) ha
      · exact heq.symm
      · rw [List.getElem?_eq_none (by rw [List.length_append, List.length_singleton]; omega)] at hget
        cases hget
  · rw [Function.update_of_ne hk, h]
    by_cases hlt : place < keys.length
    · rw [List.getElem?_append_left hlt]
    · rw [List.getElem?_append_right (Nat.le_of_not_lt hlt), List.getElem?_eq_none (Nat.le_of_not_lt hlt)]
      refine iff_of_false (by simp) fun hget => ?_
      exact hk (List.mem_singleton.mp (List.mem_of_getElem? hget))

omit [DecidableEq κ] in
theorem nil : Indexes (fun _ : κ => none) [] := fun _ _ => by simp

end Indexes

/-! ### Removal by exchange -/

section
variable {β : Type}

/-- The element and the last one change places, and the array is cut by one. -/
def swapRemove (l : List β) (index : Nat) : List β :=
  match l[index]?, l.getLast? with
  | some removed, some last => ((l.set index last).set (l.length - 1) removed).take (l.length - 1)
  | _, _ => l

theorem swapRemove_perm {l : List β} {index : Nat} (h : index < l.length) : (swapRemove l index).Perm (l.eraseIdx index) := by
  obtain ⟨init, last, rfl⟩ := (List.eq_nil_or_concat' l).resolve_left (List.ne_nil_of_length_pos (Nat.zero_lt_of_lt h))
  have hlength : (init ++ [last]).length - 1 = init.length := by simp
  rw [swapRemove, List.getElem?_eq_getElem h, List.getLast?_concat]
  dsimp only
  rw [hlength, List.take_set_of_le (Nat.le_refl _)]
  by_cases hin : index < init.length
  · rw [List.set_append_left _ _ hin, List.take_left' (List.length_set ..), List.eraseIdx_append_of_lt_length hin]
    exact (List.set_perm_cons_eraseIdx hin last).trans (List.perm_append_singleton last _).symm
  · have hlast : index = init.length := by
      rw [List.length_append, List.length_singleton] at h
      omega
    subst hlast
    simp [List.eraseIdx_append_of_length_le (Nat.le_refl init.length)]

end

end SystemMonitor.Lib
