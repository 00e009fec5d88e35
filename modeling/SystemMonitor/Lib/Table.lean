import Mathlib.Data.List.Nodup
import Mathlib.Data.List.Perm.Basic

/-! Hash tables whose rows carry their own key.

The rows are a list with distinct keys, carried as a field, so a table with two
rows of one key cannot be built. The order of the list means nothing: what
iterates a table is given a `Walk`, an arbitrary reordering, as a hash table's
iterator is. -/
namespace SystemMonitor.Lib

structure Table {α κ : Type} (key : α → κ) where
  rows : List α
  distinct : (rows.map key).Nodup

/-- The order in which an iterator happens to visit rows. -/
structure Walk (α : Type) where
  order : List α → List α
  perm : ∀ rows, (order rows).Perm rows

theorem Walk.mem {α : Type} (walk : Walk α) (rows : List α) (x : α) : x ∈ walk.order rows ↔ x ∈ rows :=
  (walk.perm rows).mem_iff

def Walk.stored {α : Type} : Walk α := ⟨id, fun _ => .refl _⟩

namespace Table
variable {α κ : Type} {key : α → κ}

def empty : Table key := ⟨[], List.nodup_nil⟩

theorem ext_rows {t u : Table key} (h : t.rows = u.rows) : t = u := by
  cases t
  cases u
  cases h
  rfl

theorem eq_of_key (t : Table key) {x y : α} (hx : x ∈ t.rows) (hy : y ∈ t.rows) (h : key x = key y) : x = y :=
  List.inj_on_of_nodup_map t.distinct hx hy h

theorem nodup (t : Table key) : t.rows.Nodup := List.Nodup.of_map key t.distinct

/-- A part of the rows. -/
def filter (t : Table key) (p : α → Bool) : Table key :=
  ⟨t.rows.filter p, t.distinct.sublist (List.filter_sublist.map _)⟩

theorem mem_filter {t : Table key} {p : α → Bool} {x : α} : x ∈ (t.filter p).rows ↔ x ∈ t.rows ∧ p x = true :=
  List.mem_filter

/-- Among the rows, a key stands for its row. -/
theorem key_mem_map (t : Table key) {chosen : List α} (hchosen : ∀ v ∈ chosen, v ∈ t.rows) {x : α}
    (hx : x ∈ t.rows) : key x ∈ chosen.map key ↔ x ∈ chosen := by
  constructor
  · intro h
    obtain ⟨v, hv, hvx⟩ := List.mem_map.mp h
    rwa [t.eq_of_key hx (hchosen v hv) hvx.symm]
  · intro h
    exact List.mem_map_of_mem h

variable [DecidableEq κ]

def find? (t : Table key) (k : κ) : Option α := t.rows.find? fun x => key x = k

theorem find?_eq_some {t : Table key} {k : κ} {x : α} : t.find? k = some x ↔ x ∈ t.rows ∧ key x = k := by
  constructor
  · intro h
    exact ⟨List.mem_of_find?_eq_some h, by simpa using List.find?_some h⟩
  · intro hpair
    obtain ⟨hx, hk⟩ := hpair
    cases h : t.find? k with
    | none => exact absurd hk (by simpa using List.find?_eq_none.mp h x hx)
    | some y =>
      have hyk : key y = k := by simpa using List.find?_some h
      rw [t.eq_of_key (List.mem_of_find?_eq_some h) hx (hyk.trans hk.symm)]

theorem find?_eq_none {t : Table key} {k : κ} : t.find? k = none ↔ ∀ x ∈ t.rows, key x ≠ k := by
  unfold find?
  rw [List.find?_eq_none]
  simp

/-- Insert a row, in the place of the row of its key if there is one. -/
def put (t : Table key) (x : α) : Table key :=
  if h : key x ∈ t.rows.map key then
    ⟨t.rows.map fun y => if key y = key x then x else y, by
      have hkeys : (t.rows.map fun y => if key y = key x then x else y).map key = t.rows.map key := by
        rw [List.map_map]
        apply List.map_congr_left
        intro y _
        by_cases hy : key y = key x
        · simp [hy]
        · simp [hy]
      rw [hkeys]
      exact t.distinct⟩
  else ⟨t.rows ++ [x], by
    rw [List.map_append]
    exact List.Nodup.append t.distinct (List.nodup_singleton _) (by simpa using h)⟩

theorem mem_put {t : Table key} {x y : α} : y ∈ (t.put x).rows ↔ y = x ∨ y ∈ t.rows ∧ key y ≠ key x := by
  unfold put
  split
  · rename_i h
    obtain ⟨z, hz, hzx⟩ := List.mem_map.mp h
    simp only [List.mem_map]
    constructor
    · intro hpair
      obtain ⟨w, hw, rfl⟩ := hpair
      by_cases hwx : key w = key x
      · exact Or.inl (if_pos hwx)
      · rw [if_neg hwx]
        exact Or.inr ⟨hw, hwx⟩
    · intro hcase
      rcases hcase with rfl | ⟨hy, hyx⟩
      · exact ⟨z, hz, if_pos hzx⟩
      · exact ⟨y, hy, if_neg hyx⟩
  · rename_i h
    simp only [List.mem_append, List.mem_singleton]
    constructor
    · intro hcase
      rcases hcase with hy | rfl
      · exact Or.inr ⟨hy, fun hk => h (List.mem_map.mpr ⟨y, hy, hk⟩)⟩
      · exact Or.inl rfl
    · intro hcase
      rcases hcase with rfl | ⟨hy, -⟩
      · exact Or.inr rfl
      · exact Or.inl hy

theorem find?_put (t : Table key) (x : α) (k : κ) : (t.put x).find? k = if key x = k then some x else t.find? k := by
  by_cases hk : key x = k
  · rw [if_pos hk]
    exact find?_eq_some.mpr ⟨mem_put.mpr (Or.inl rfl), hk⟩
  · rw [if_neg hk]
    cases h : t.find? k with
    | none =>
      apply find?_eq_none.mpr
      intro y hy
      rcases mem_put.mp hy with rfl | ⟨hy, -⟩
      · exact hk
      · exact find?_eq_none.mp h y hy
    | some y =>
      obtain ⟨hy, hyk⟩ := find?_eq_some.mp h
      exact find?_eq_some.mpr ⟨mem_put.mpr (Or.inr ⟨hy, fun hyx => hk (hyx.symm.trans hyk)⟩), hyk⟩

theorem find?_filter (t : Table key) (p : α → Bool) (k : κ) : (t.filter p).find? k = (t.find? k).filter p := by
  apply Option.ext
  intro x
  rw [find?_eq_some, mem_filter, Option.filter_eq_some_iff, find?_eq_some]
  constructor
  · intro hpair
    obtain ⟨⟨hx, hp⟩, hk⟩ := hpair
    exact ⟨⟨hx, hk⟩, hp⟩
  · intro hpair
    obtain ⟨⟨hx, hk⟩, hp⟩ := hpair
    exact ⟨⟨hx, hp⟩, hk⟩

/-- Only a row of a new key makes the table longer. -/
theorem length_put (t : Table key) (x : α) :
    (t.put x).rows.length = if (t.find? (key x)).isSome then t.rows.length else t.rows.length + 1 := by
  have hiff : key x ∈ t.rows.map key ↔ (t.find? (key x)).isSome = true := by
    rw [Option.isSome_iff_exists]
    constructor
    · intro h
      obtain ⟨y, hy, hyx⟩ := List.mem_map.mp h
      exact ⟨y, find?_eq_some.mpr ⟨hy, hyx⟩⟩
    · intro hpair
      obtain ⟨y, hy⟩ := hpair
      obtain ⟨hy, hyx⟩ := find?_eq_some.mp hy
      exact List.mem_map.mpr ⟨y, hy, hyx⟩
  unfold put
  by_cases h : key x ∈ t.rows.map key
  · rw [dif_pos h, if_pos (hiff.mp h)]
    exact List.length_map _
  · rw [dif_neg h, if_neg (fun hs => h (hiff.mpr hs)), List.length_append]
    rfl

/-- `g_hash_table_remove` for each of the keys. -/
def erase (t : Table key) (keys : List κ) : Table key := t.filter fun x => key x ∉ keys

theorem mem_erase {t : Table key} {keys : List κ} {x : α} : x ∈ (t.erase keys).rows ↔ x ∈ t.rows ∧ key x ∉ keys := by
  unfold erase
  rw [mem_filter]
  simp

theorem length_erase (t : Table key) (victims : List α) (hnodup : victims.Nodup)
    (hvictims : ∀ v ∈ victims, v ∈ t.rows) :
    (t.erase (victims.map key)).rows.length + victims.length = t.rows.length := by
  -- What is removed is exactly the victims.
  have hremoved : (t.rows.filter fun x => key x ∈ victims.map key).Perm victims := by
    apply (List.perm_ext_iff_of_nodup (t.nodup.filter _) hnodup).mpr
    intro x
    rw [List.mem_filter, decide_eq_true_iff]
    constructor
    · intro hpair
      obtain ⟨hx, hk⟩ := hpair
      exact (t.key_mem_map hvictims hx).mp hk
    · intro hx
      exact ⟨hvictims x hx, List.mem_map_of_mem hx⟩
  have hsplit := List.length_eq_length_filter_add (l := t.rows) (fun x => decide (key x ∈ victims.map key))
  rw [hremoved.length_eq] at hsplit
  have hkept : (t.erase (victims.map key)).rows = t.rows.filter fun x => !decide (key x ∈ victims.map key) := by
    simp only [erase, filter, decide_not]
  rw [hkept]
  omega

end Table

end SystemMonitor.Lib
