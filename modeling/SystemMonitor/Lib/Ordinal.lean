import Mathlib.Data.List.Basic

/-! The member at an ordinal among those with a property.

Where a member stands among them is how many come before it (`nth_eq_some`). Changing one
member moves the others by one place at most (`countP_take_modify_le`). -/
namespace SystemMonitor.Lib.Ordinal
variable {α : Type} (f : α → Bool)

/-- The place of the `n`th member with the property. -/
def nth (l : List α) (n : Nat) : Option Nat := ((l.zipIdx.filter fun entry => f entry.1)[n]?).map Prod.snd

theorem nth_from (l : List α) (start n place : Nat) :
    (((l.zipIdx start).filter fun entry => f entry.1)[n]?).map Prod.snd = some place ↔
      ∃ offset a, place = start + offset ∧ l[offset]? = some a ∧ f a = true ∧ (l.take offset).countP f = n := by
  induction l generalizing start n with
  | nil => exact iff_of_false (by simp) fun ⟨_, _, _, h, _⟩ => by cases h
  | cons b l ih =>
    rw [List.zipIdx_cons]
    cases hb : f b with
    | false =>
      rw [List.filter_cons_of_neg (by rw [hb]; exact Bool.false_ne_true), ih]
      constructor
      · rintro ⟨offset, a, rfl, ha, hf, hcount⟩
        refine ⟨offset + 1, a, by omega, ha, hf, ?_⟩
        rw [List.take_succ_cons, List.countP_cons_of_neg (by rw [hb]; exact Bool.false_ne_true), hcount]
      · rintro ⟨offset, a, rfl, ha, hf, hcount⟩
        cases offset with
        | zero =>
          cases ha
          rw [hb] at hf
          cases hf
        | succ offset =>
          rw [List.take_succ_cons, List.countP_cons_of_neg (by rw [hb]; exact Bool.false_ne_true)] at hcount
          exact ⟨offset, a, by omega, ha, hf, hcount⟩
    | true =>
      rw [List.filter_cons_of_pos (p := fun entry : α × Nat => f entry.1) hb]
      cases n with
      | zero =>
        constructor
        · intro h
          cases h
          exact ⟨0, b, rfl, rfl, hb, rfl⟩
        · rintro ⟨offset, a, rfl, ha, hf, hcount⟩
          cases offset with
          | zero => rfl
          | succ offset =>
            rw [List.take_succ_cons, List.countP_cons_of_pos hb] at hcount
            cases hcount
      | succ n =>
        rw [List.getElem?_cons_succ, ih]
        constructor
        · rintro ⟨offset, a, rfl, ha, hf, hcount⟩
          refine ⟨offset + 1, a, by omega, ha, hf, ?_⟩
          rw [List.take_succ_cons, List.countP_cons_of_pos hb, hcount]
        · rintro ⟨offset, a, rfl, ha, hf, hcount⟩
          cases offset with
          | zero => cases hcount
          | succ offset =>
            rw [List.take_succ_cons, List.countP_cons_of_pos hb] at hcount
            exact ⟨offset, a, by omega, ha, hf, Nat.succ.inj hcount⟩

theorem nth_eq_some {l : List α} {n place : Nat} :
    nth f l n = some place ↔ ∃ a, l[place]? = some a ∧ f a = true ∧ (l.take place).countP f = n := by
  rw [nth, nth_from]
  constructor
  · rintro ⟨offset, a, rfl, h⟩
    rw [Nat.zero_add]
    exact ⟨a, h⟩
  · rintro ⟨a, h⟩
    exact ⟨place, a, (Nat.zero_add place).symm, h⟩

theorem nth_eq_none {l : List α} {n : Nat} : nth f l n = none ↔ l.countP f ≤ n := by
  have hlength : (l.zipIdx.filter fun entry => f entry.1).length = l.countP f := by
    rw [← List.countP_eq_length_filter]
    conv_rhs => rw [← List.zipIdx_map_fst 0 l, List.countP_map]
    rfl
  rw [nth, Option.map_eq_none_iff, List.getElem?_eq_none_iff, hlength]

variable {f}

theorem countP_modify_le (l : List α) (i : Nat) (g : α → α) : (l.modify i g).countP f ≤ l.countP f + 1 := by
  induction l generalizing i with
  | nil => rw [List.modify_nil]; exact Nat.le_succ _
  | cons a l ih =>
    cases i with
    | zero =>
      rw [List.modify_zero_cons, List.countP_cons, List.countP_cons]
      split <;> split <;> omega
    | succ i =>
      have hrest := ih i
      rw [List.modify_succ_cons, List.countP_cons, List.countP_cons]
      omega

theorem countP_take_modify_le (l : List α) (i p : Nat) (g : α → α) :
    ((l.modify i g).take p).countP f ≤ (l.take p).countP f + 1 := by
  rw [List.take_modify]
  exact countP_modify_le _ i g

/-- A change behind the place does not move it. -/
theorem take_modify_of_le (l : List α) {i p : Nat} (g : α → α) (h : p ≤ i) : (l.modify i g).take p = l.take p := by
  rw [List.take_modify]
  exact List.modify_eq_self (Nat.le_trans (List.length_take_le ..) h)

end SystemMonitor.Lib.Ordinal
