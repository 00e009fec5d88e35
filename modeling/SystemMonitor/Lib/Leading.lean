import Mathlib.Data.List.Sort

/-! The first elements in an order, found in one pass.

A list of bounded length is enough to find the first elements of many: an element
is inserted where it belongs, and what the bound leaves out can never come back
(`take_orderedInsert`). With distinct ranks the elements seen so far are sorted by
inserting the last one (`insertionSort_concat`), so the pass keeps the first of the
sorted list. In an array the elements behind the place of the new one move up by one
(`moveUp_set`). -/
namespace SystemMonitor.Lib.Leading
variable {α : Type}

section
variable (r : α → α → Prop) [DecidableRel r]

theorem take_orderedInsert (a : α) (l : List α) (k : Nat) :
    ((l.take k).orderedInsert r a).take k = (l.orderedInsert r a).take k := by
  induction l generalizing k with
  | nil => rw [List.take_nil]
  | cons b l ih =>
    cases k with
    | zero => rfl
    | succ k =>
      rw [List.take_succ_cons, List.orderedInsert_cons, List.orderedInsert_cons]
      split
      · rw [List.take_succ_cons, List.take_succ_cons]
        cases k with
        | zero => rfl
        | succ k => rw [List.take_succ_cons, List.take_succ_cons, List.take_take, Nat.min_eq_left (Nat.le_succ k)]
      · rw [List.take_succ_cons, List.take_succ_cons, ih]

end

section
variable {β : Type} [LinearOrder β] (rank : α → β)

/-- Elements in the order of their ranks. -/
def sorted (l : List α) : List α := l.insertionSort fun a b => rank a ≤ rank b

instance rankTotal : Std.Total fun a b => rank a ≤ rank b := ⟨fun _ _ => le_total _ _⟩

instance rankTrans : IsTrans α fun a b => rank a ≤ rank b := ⟨fun _ _ _ => le_trans⟩

variable {rank}

theorem sorted_perm (l : List α) : (sorted rank l).Perm l := List.perm_insertionSort _ l

/-- **An element more is inserted.** -/
theorem sorted_concat {l : List α} {a : α} (h : ∀ x ∈ l ++ [a], ∀ y ∈ l ++ [a], rank x = rank y → x = y) :
    sorted rank (l ++ [a]) = (sorted rank l).orderedInsert (fun a b => rank a ≤ rank b) a := by
  have hperm : (sorted rank (l ++ [a])).Perm ((sorted rank l).orderedInsert (fun a b => rank a ≤ rank b) a) :=
    (sorted_perm _).trans ((List.perm_append_singleton a l).trans
      (((sorted_perm l).symm.cons a).trans (List.perm_orderedInsert _ a _).symm))
  refine hperm.eq_of_pairwise (fun x y hx hy hxy hyx => ?_) (List.pairwise_insertionSort _ _)
    ((List.pairwise_insertionSort _ l).orderedInsert a _)
  have hmem : ∀ x, x ∈ sorted rank (l ++ [a]) → x ∈ l ++ [a] := fun x hx => (sorted_perm _).mem_iff.mp hx
  exact h x (hmem x hx) y (hmem y (hperm.mem_iff.mpr hy)) (le_antisymm hxy hyx)

end

/-! ### In an array -/

/-- `for (move = limit; move > position; move--) items[move] = items[move - 1]`. -/
def moveUp (position : Nat) : Nat → List α → List α
  | 0, items => items
  | move + 1, items =>
    if position < move + 1 then
      match items[move]? with
      | some a => moveUp position move (items.set (move + 1) a)
      | none => items
    else items

/-- The place is free for the new element, and the one at the limit is overwritten. -/
theorem moveUp_set {position limit : Nat} (hposition : position ≤ limit) {items : List α} (hlimit : limit < items.length)
    (a : α) : (moveUp position limit items).set position a =
      items.take position ++ a :: ((items.drop position).take (limit - position) ++ items.drop (limit + 1)) := by
  induction limit generalizing items with
  | zero =>
    obtain rfl := Nat.le_zero.mp hposition
    rw [moveUp, List.set_eq_take_append_cons_drop, if_pos hlimit]
    rfl
  | succ limit ih =>
    rcases Nat.lt_or_eq_of_le hposition with hlt | rfl
    · have hread : items[limit]? = some items[limit] := List.getElem?_eq_getElem (Nat.lt_of_succ_lt hlimit)
      rw [moveUp, if_pos hlt, hread]
      dsimp only
      rw [ih (Nat.le_of_lt_succ hlt) (by rw [List.length_set]; omega)]
      have hfront : (items.set (limit + 1) items[limit]).take position = items.take position :=
        List.take_set_of_le (by omega)
      have hmiddle : ((items.set (limit + 1) items[limit]).drop position).take (limit - position) =
          (items.drop position).take (limit - position) := by
        rw [List.drop_set, if_neg (by omega)]
        exact List.take_set_of_le (by omega)
      have hback : (items.set (limit + 1) items[limit]).drop (limit + 1) = items[limit] :: items.drop (limit + 1 + 1) := by
        rw [List.drop_set, if_neg (Nat.lt_irrefl _), Nat.sub_self, List.drop_eq_getElem_cons hlimit]
        rfl
      have hmore : (items.drop position).take (limit + 1 - position) =
          (items.drop position).take (limit - position) ++ [items[limit]] := by
        rw [Nat.succ_sub (Nat.le_of_lt_succ hlt), List.take_add_one, List.getElem?_drop,
          Nat.add_sub_cancel' (Nat.le_of_lt_succ hlt), hread]
        rfl
      rw [hfront, hmiddle, hback, hmore, List.append_assoc]
      rfl
    · rw [moveUp, if_neg (Nat.lt_irrefl _), List.set_eq_take_append_cons_drop, if_pos hlimit, Nat.sub_self]
      rfl

end SystemMonitor.Lib.Leading
