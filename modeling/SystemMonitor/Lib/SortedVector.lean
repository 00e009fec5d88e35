import Mathlib.Data.List.Basic
import SystemMonitor.Lib.LowerBound

/-! Vectors kept sorted by a key that no two rows share.

A row is found, or its place is found, by a lower-bound search. `Strictly.place`
says what the search of a strictly sorted vector finds: the row of the key, or the
one place where a row of the key keeps the vector strictly sorted. -/
namespace SystemMonitor.Lib

variable {α κ : Type} [LinearOrder κ] {key : α → κ}

/-- Strictly sorted by the key. -/
def Strictly (key : α → κ) (rows : List α) : Prop := rows.Pairwise fun a b => key a < key b

theorem Strictly.nodup {rows : List α} (h : Strictly key rows) : (rows.map key).Nodup := by
  rw [List.Nodup, List.pairwise_map]
  exact List.Pairwise.imp (fun hlt => ne_of_lt hlt) h

theorem Strictly.sublist {rows part : List α} (h : Strictly key rows) (hsub : part.Sublist rows) : Strictly key part :=
  List.Pairwise.sublist hsub h

/-- Only the keys matter. -/
theorem Strictly.congr {rows other : List α} (hkeys : other.map key = rows.map key) (h : Strictly key rows) :
    Strictly key other := by
  unfold Strictly at h ⊢
  rw [← List.pairwise_map (f := key) (R := fun a b => a < b)] at h ⊢
  rwa [hkeys]

theorem Strictly.ascending {rows : List α} (h : Strictly key rows) {keyAt : Nat → κ}
    (hkeys : ∀ i (hi : i < rows.length), keyAt i = key rows[i]) : Ascending keyAt rows.length := by
  intro i j hij hj
  rw [hkeys i (hij.trans hj), hkeys j hj]
  exact List.pairwise_iff_getElem.mp h i j (hij.trans hj) hj hij

/-- A row put in where its key belongs. -/
theorem Strictly.insert {before after : List α} {row : α} (h : Strictly key (before ++ after))
    (hbefore : ∀ x ∈ before, key x < key row) (hafter : ∀ x ∈ after, key row < key x) :
    Strictly key (before ++ row :: after) := by
  obtain ⟨hb, ha, hba⟩ := List.pairwise_append.mp h
  refine List.pairwise_append.mpr ⟨hb, List.pairwise_cons.mpr ⟨hafter, ha⟩, fun x hx y hy => ?_⟩
  rcases List.mem_cons.mp hy with rfl | hy
  · exact hbefore x hx
  · exact hba x hx y hy

/-- What a search finds: the row of the key, or the place of one. -/
inductive Place (key : α → κ) (rows : List α) (target : κ) (position : Nat) : Prop where
  | found (before : List α) (row : α) (after : List α) (hrows : rows = before ++ row :: after)
    (hkey : key row = target) (hposition : position = before.length)
  | missing (before after : List α) (hrows : rows = before ++ after) (hposition : position = before.length)
    (hbefore : ∀ x ∈ before, key x < target) (hafter : ∀ x ∈ after, target < key x)

theorem Strictly.place {rows : List α} (h : Strictly key rows) {keyAt : Nat → κ}
    (hkeys : ∀ i (hi : i < rows.length), keyAt i = key rows[i]) (target : κ) :
    Place key rows target (lowerBound keyAt target rows.length 0 rows.length) := by
  have hasc := h.ascending hkeys
  obtain ⟨hle, hbelow, habove⟩ := lowerBound_loop keyAt target hasc.sorted rows.length 0 rows.length (by omega)
    (by omega) (Nat.le_refl _) (fun i h => absurd h (Nat.not_lt_zero i)) (fun i h h' => absurd h (by omega))
  generalize lowerBound keyAt target rows.length 0 rows.length = position at hle hbelow habove ⊢
  have hlength : position = (rows.take position).length := by rw [List.length_take, Nat.min_eq_left hle]
  have hbefore : ∀ x ∈ rows.take position, key x < target := by
    intro x hx
    obtain ⟨i, hi, rfl⟩ := List.getElem_of_mem hx
    rw [List.length_take] at hi
    have hkey := hbelow i (by omega)
    rw [hkeys i (by omega)] at hkey
    rw [List.getElem_take]
    exact hkey
  have hafter : ∀ x ∈ rows.drop position, target ≤ key x := by
    intro x hx
    obtain ⟨i, hi, rfl⟩ := List.getElem_of_mem hx
    rw [List.length_drop] at hi
    have hkey := habove (position + i) (by omega) (by omega)
    rw [hkeys _ (by omega)] at hkey
    rw [List.getElem_drop]
    exact hkey
  cases hdrop : rows.drop position with
  | nil =>
    refine .missing (rows.take position) [] ?_ hlength hbefore fun x hx => nomatch hx
    rw [List.append_nil, List.take_of_length_le (List.drop_eq_nil_iff.mp hdrop)]
  | cons row after =>
    have hrows : rows = rows.take position ++ row :: after := by rw [← hdrop, List.take_append_drop]
    rw [hdrop] at hafter
    have hstrict : ∀ x ∈ after, key row < key x := by
      rw [hrows] at h
      exact (List.pairwise_cons.mp (List.pairwise_append.mp h).2.1).1
    rcases lt_or_eq_of_le (hafter row (List.mem_cons_self ..)) with hlt | heq
    · refine .missing (rows.take position) (row :: after) hrows hlength hbefore fun x hx => ?_
      rcases List.mem_cons.mp hx with rfl | hx
      · exact hlt
      · exact hlt.trans (hstrict x hx)
    · exact .found (rows.take position) row after hrows heq.symm hlength

end SystemMonitor.Lib
