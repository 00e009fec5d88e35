import Mathlib.Data.List.Nodup
import Mathlib.Data.List.Perm.Basic

/-! In-place updates of a keyed sequence behind an undo journal.

Each entry is the position an update overwrites and the value that stood there.
Undoing runs the journal from its newest entry to its oldest. An update that is
journalled first is undone exactly (`undo_set`), whatever was appended past the
journalled positions (`undo_append`).

`overlay` is the sequence such updates lead to, in closed form: every element
replaced by the edit of its key, if there is one. -/
namespace SystemMonitor.Lib.Journal

open scoped List

variable {α : Type}

/-- Newest entry first. -/
def undo (xs : List α) : List (Nat × α) → List α
  | [] => xs
  | (i, before) :: older => undo (xs.set i before) older

/-- What the journal never mentions survives undoing. -/
theorem undo_append (xs ys : List α) (journal : List (Nat × α)) (h : ∀ e ∈ journal, e.1 < xs.length) :
    undo (xs ++ ys) journal = undo xs journal ++ ys := by
  induction journal generalizing xs with
  | nil => rfl
  | cons entry older ih =>
    obtain ⟨i, before⟩ := entry
    have hi : i < xs.length := h _ (List.mem_cons_self ..)
    simp only [undo]
    rw [List.set_append_left _ _ hi]
    apply ih
    intro e he
    rw [List.length_set]
    exact h e (List.mem_cons_of_mem _ he)

/-- Overwriting a position whose value was journalled is undone. -/
theorem undo_set (xs : List α) (journal : List (Nat × α)) {i : Nat} {before : α}
    (hi : xs[i]? = some before) (value : α) : undo (xs.set i value) ((i, before) :: journal) = undo xs journal := by
  obtain ⟨hlt, hget⟩ := List.getElem?_eq_some_iff.mp hi
  have hback : (xs.set i value).set i before = xs := by
    rw [List.set_set, ← hget, List.set_getElem_self]
  simp only [undo, hback]

/-! ### Edits by key -/

variable {κ : Type} [DecidableEq κ] (key : α → κ)

def overlay (xs edits : List α) : List α := xs.map fun x => (edits.find? fun e => key e = key x).getD x

/-- An edit carries the key of what it replaces. -/
theorem key_find?_getD (edits : List α) (x : α) : key ((edits.find? fun e => key e = key x).getD x) = key x := by
  cases h : edits.find? fun e => key e = key x with
  | none => rfl
  | some e => simpa using List.find?_some h

/-- An element whose key has no edit is untouched. -/
theorem find?_getD_of_forall_ne {edits : List α} {x : α} (h : ∀ e ∈ edits, key e ≠ key x) :
    (edits.find? fun e => key e = key x).getD x = x := by
  have hnone : (edits.find? fun e => key e = key x) = none := by
    apply List.find?_eq_none.mpr
    intro e he
    simpa using h e he
  rw [hnone]
  rfl

theorem find?_getD_of_mem {edits : List α} (hnodup : (edits.map key).Nodup) {e x : α} (he : e ∈ edits)
    (hkey : key e = key x) : (edits.find? fun e => key e = key x).getD x = e := by
  cases h : edits.find? fun e => key e = key x with
  | none => exact absurd hkey (by simpa using List.find?_eq_none.mp h e he)
  | some e' =>
    have hkey' : key e' = key x := by simpa using List.find?_some h
    exact List.inj_on_of_nodup_map hnodup (List.mem_of_find?_eq_some h) he (hkey'.trans hkey.symm)

variable {key}

theorem length_overlay (xs edits : List α) : (overlay key xs edits).length = xs.length := List.length_map _

theorem getElem?_overlay (xs edits : List α) (i : Nat) : (overlay key xs edits)[i]? =
    xs[i]?.map fun x => (edits.find? fun e => key e = key x).getD x := List.getElem?_map

theorem overlay_nil (xs : List α) : overlay key xs [] = xs := by
  show xs.map (fun x => (none : Option α).getD x) = xs
  exact List.map_id xs

theorem map_key_overlay (xs edits : List α) : (overlay key xs edits).map key = xs.map key := by
  unfold overlay
  rw [List.map_map]
  apply List.map_congr_left
  intro x _
  exact key_find?_getD key edits x

/-- An edit of a key that is not in the sequence changes nothing. -/
theorem overlay_append_of_forall_ne (xs edits : List α) {v : α} (h : ∀ x ∈ xs, key x ≠ key v) :
    overlay key xs (edits ++ [v]) = overlay key xs edits := by
  apply List.map_congr_left
  intro x hx
  have hne : ¬ key v = key x := fun hk => h x hx hk.symm
  rw [List.find?_append]
  cases edits.find? fun e => key e = key x with
  | none => simp [hne]
  | some e => rfl

/-- Writing the first edit of a key in place. -/
theorem set_overlay {xs : List α} (hnodup : (xs.map key).Nodup) (edits : List α) {i : Nat} {x v : α}
    (hi : xs[i]? = some x) (hkey : key v = key x) (hnew : ∀ e ∈ edits, key e ≠ key v) :
    (overlay key xs edits).set i v = overlay key xs (edits ++ [v]) := by
  have hlt : i < xs.length := (List.getElem?_eq_some_iff.mp hi).1
  apply List.ext_getElem?
  intro k
  rw [getElem?_overlay]
  by_cases hik : i = k
  · subst hik
    have hnone : (edits.find? fun e => key e = key x) = none := by
      apply List.find?_eq_none.mpr
      intro e he
      simpa [← hkey] using hnew e he
    rw [List.getElem?_set_self (by rwa [length_overlay]), hi, Option.map_some, List.find?_append, hnone]
    simp [hkey]
  · rw [List.getElem?_set_ne hik, getElem?_overlay]
    cases hk : xs[k]? with
    | none => rfl
    | some y =>
      have hne : ¬ key v = key y := by
        intro hvy
        apply hik
        have hmap : (xs.map key)[i]? = (xs.map key)[k]? := by
          rw [List.getElem?_map, List.getElem?_map, hi, hk, Option.map_some, Option.map_some, ← hkey, hvy]
        exact (List.getElem?_inj (by rwa [List.length_map]) hnodup).mp hmap
      rw [Option.map_some, Option.map_some, List.find?_append]
      cases edits.find? fun e => key e = key y with
      | none => simp [hne]
      | some e => rfl

/-- The written value takes the place of the one it overwrites. -/
theorem overlay_append_perm {xs : List α} (hnodup : (xs.map key).Nodup) (edits : List α) {i : Nat} {x v : α}
    (hi : xs[i]? = some x) (hkey : key v = key x) (hnew : ∀ e ∈ edits, key e ≠ key v) :
    (x :: overlay key xs (edits ++ [v])).Perm (v :: overlay key xs edits) := by
  have hx : (overlay key xs edits)[i]? = some x := by
    rw [getElem?_overlay, hi, Option.map_some, find?_getD_of_forall_ne]
    intro e he
    rw [← hkey]
    exact hnew e he
  obtain ⟨hlt, hget⟩ := List.getElem?_eq_some_iff.mp hx
  rw [← set_overlay hnodup edits hi hkey hnew]
  calc x :: (overlay key xs edits).set i v
      _ ~ x :: v :: (overlay key xs edits).eraseIdx i := (List.set_perm_cons_eraseIdx hlt v).cons x
      _ ~ v :: x :: (overlay key xs edits).eraseIdx i := List.Perm.swap ..
      _ ~ v :: overlay key xs edits := by
        rw [← hget]
        exact (List.getElem_cons_eraseIdx_perm hlt).cons v

end SystemMonitor.Lib.Journal
