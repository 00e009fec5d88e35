import SystemMonitor.Lib.GroupBy

/-! An array of records that are found by their keys through an index.

The record of a key is found or made at the end of the array, and changed. Over any sequence of such
operations there is one record for each key, in the order in which the keys first came, and it is
what the operations of its key have made of a new one (`Holds.upsert`). -/
namespace SystemMonitor.Lib.Upsert

variable {κ ρ : Type} [DecidableEq κ]

structure Indexed (κ ρ : Type) where
  records : List ρ := []
  index : κ → Option Nat := fun _ => none

/-- The place of a key's record, which is made if there is none. -/
def Indexed.get (t : Indexed κ ρ) (k : κ) (new : ρ) : Indexed κ ρ × Nat :=
  match t.index k with
  | some place => (t, place)
  | none =>
    ({records := t.records ++ [new], index := Function.update t.index k (some t.records.length)}, t.records.length)

def Indexed.change (t : Indexed κ ρ) (place : Nat) (f : ρ → ρ) : Indexed κ ρ :=
  {t with records := t.records.modify place f}

def Indexed.upsert (t : Indexed κ ρ) (k : κ) (new : ρ) (f : ρ → ρ) : Indexed κ ρ :=
  (t.get k new).1.change (t.get k new).2 f

/-- What the operations of a key make of a new record. -/
def recordOf (new : κ → ρ) (ops : List (κ × (ρ → ρ))) (k : κ) : ρ :=
  (membersOf Prod.fst ops k).foldl (fun record op => op.2 record) (new k)

theorem recordOf_concat (new : κ → ρ) (ops : List (κ × (ρ → ρ))) (k : κ) (f : ρ → ρ) (other : κ) :
    recordOf new (ops ++ [(k, f)]) other = if k = other then f (recordOf new ops other) else recordOf new ops other := by
  rw [recordOf, membersOf_concat]
  split
  · rw [List.foldl_append]
    rfl
  · rfl

structure Holds (new : κ → ρ) (ops : List (κ × (ρ → ρ))) (t : Indexed κ ρ) : Prop where
  indexed : Indexes t.index (keysOf Prod.fst ops)
  records : t.records = (keysOf Prod.fst ops).map (recordOf new ops)

variable {new : κ → ρ} {ops : List (κ × (ρ → ρ))} {t : Indexed κ ρ}

theorem Holds.nil : Holds new [] {} := ⟨.nil, rfl⟩

theorem Holds.length (h : Holds new ops t) : t.records.length = (keysOf Prod.fst ops).length := by
  rw [h.records, List.length_map]

/-- A key that has a record. -/
theorem Holds.found (h : Holds new ops t) {k : κ} {place : Nat} (hplace : t.index k = some place) (f : ρ → ρ) :
    Holds new (ops ++ [(k, f)]) (t.change place f) := by
  have hat : (keysOf Prod.fst ops)[place]? = some k := (h.indexed k place).mp hplace
  have hkeys : keysOf Prod.fst (ops ++ [(k, f)]) = keysOf Prod.fst ops := by
    rw [keysOf_concat, if_pos (List.mem_of_getElem? hat)]
  refine ⟨hkeys ▸ h.indexed, ?_⟩
  rw [hkeys, Indexed.change, h.records]
  refine List.ext_getElem? fun i => ?_
  rw [List.getElem?_modify, List.getElem?_map, List.getElem?_map]
  cases hi : (keysOf Prod.fst ops)[i]? with
  | none => rfl
  | some other =>
    refine congrArg some ?_
    dsimp only
    rw [recordOf_concat]
    have hsame : place = i ↔ k = other := by
      constructor
      · rintro rfl
        exact Option.some.inj (hat.symm.trans hi)
      · intro heq
        exact (List.getElem?_inj (List.getElem?_eq_some_iff.mp hat).1 (nodup_keysOf ops)).mp (by rw [hat, hi, heq])
    by_cases hplace : place = i
    · rw [if_pos hplace, if_pos (hsame.mp hplace)]
    · rw [if_neg hplace, if_neg fun heq => hplace (hsame.mpr heq)]

/-- A key that comes for the first time. -/
theorem Holds.made (h : Holds new ops t) {k : κ} (hnone : t.index k = none) (f : ρ → ρ) :
    Holds new (ops ++ [(k, f)])
      (Indexed.change {records := t.records ++ [new k], index := Function.update t.index k (some t.records.length)}
        t.records.length f) := by
  have hk : k ∉ keysOf Prod.fst ops := h.indexed.eq_none_iff.mp hnone
  have hkeys : keysOf Prod.fst (ops ++ [(k, f)]) = keysOf Prod.fst ops ++ [k] := by
    rw [keysOf_concat, if_neg hk]
  refine ⟨?_, ?_⟩
  · rw [hkeys, Indexed.change, h.length]
    exact h.indexed.concat hk
  · have hold : (keysOf Prod.fst ops).map (recordOf new (ops ++ [(k, f)])) = (keysOf Prod.fst ops).map (recordOf new ops) := by
      refine List.map_congr_left fun other hother => ?_
      rw [recordOf_concat, if_neg fun heq : k = other => hk (heq ▸ hother)]
    have hnew : recordOf new (ops ++ [(k, f)]) k = f (new k) := by
      rw [recordOf_concat, if_pos rfl, recordOf, membersOf_eq_nil.mpr hk]
      rfl
    rw [hkeys, List.map_append, hold, ← h.records, List.map_singleton, hnew, Indexed.change]
    refine List.ext_getElem? fun i => ?_
    rw [List.getElem?_modify]
    rcases Nat.lt_trichotomy i t.records.length with hlt | rfl | hgt
    · rw [List.getElem?_append_left hlt, List.getElem?_append_left hlt]
      simp [Nat.ne_of_gt hlt]
    · simp
    · rw [List.getElem?_eq_none (by simp; omega), List.getElem?_eq_none (by simp; omega)]
      rfl

/-- **One operation.** -/
theorem Holds.upsert (h : Holds new ops t) (k : κ) (f : ρ → ρ) : Holds new (ops ++ [(k, f)]) (t.upsert k (new k) f) := by
  rw [Indexed.upsert, Indexed.get]
  cases hplace : t.index k with
  | some place => exact h.found hplace f
  | none => exact h.made hplace f

end SystemMonitor.Lib.Upsert
