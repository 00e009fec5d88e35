import Mathlib.Data.Fintype.Card
import Mathlib.Data.List.Basic
import Mathlib.Data.List.FinRange
import Mathlib.Data.List.Nodup

/-! Arranging a list by moving its elements one behind the other.

`arrange_eq`: moving each of some targets behind the one before it puts the list in the
order of the targets, whatever its order was. An order can be given by the position of each
element; `distinctWithin_iff` is the test that it is one, and `arranged` the list it
describes. -/
namespace SystemMonitor.Lib.Arrange

section
variable {α : Type} [DecidableEq α]

def insertAfter (base a : α) : List α → List α
  | [] => [a]
  | b :: rest => if b = base then b :: a :: rest else b :: insertAfter base a rest

/-- Behind the base, or to the front without one. -/
def moveAfter (l : List α) (a : α) : Option α → List α
  | none => a :: l.erase a
  | some base => insertAfter base a (l.erase a)

/-- One move, and the next one goes behind it. -/
def move (state : List α × Option α) (a : α) : List α × Option α := (moveAfter state.1 a state.2, some a)

theorem insertAfter_append {base a : α} {before : List α} (h : base ∉ before) (after : List α) :
    insertAfter base a (before ++ base :: after) = before ++ base :: a :: after := by
  induction before with
  | nil => exact if_pos rfl
  | cons b rest ih =>
    have hb : b ≠ base := fun heq => h (heq ▸ List.mem_cons_self ..)
    show (if b = base then _ else b :: insertAfter base a (rest ++ base :: after)) = _
    rw [if_neg hb, ih fun hmem => h (List.mem_cons_of_mem b hmem)]
    rfl

/-- One move brings the element behind what has been arranged. -/
theorem moveAfter_append {arranged rest : List α} {a : α} (hnodup : arranged.Nodup) (ha : a ∉ arranged) :
    moveAfter (arranged ++ rest) a arranged.getLast? = arranged ++ a :: rest.erase a := by
  have herase : (arranged ++ rest).erase a = arranged ++ rest.erase a := List.erase_append_right rest ha
  cases arranged using List.reverseRecOn with
  | nil => rfl
  | append_singleton before base =>
    have hbase : base ∉ before := fun hmem => List.disjoint_of_nodup_append hnodup hmem (List.mem_singleton_self base)
    rw [List.getLast?_concat, moveAfter, herase, List.append_assoc, List.singleton_append, insertAfter_append hbase,
      List.append_assoc, List.singleton_append]

theorem move_append {arranged targets rest : List α} (hnodup : (arranged ++ targets).Nodup) (hperm : rest.Perm targets) :
    (targets.foldl move (arranged ++ rest, arranged.getLast?)).1 = arranged ++ targets := by
  induction targets generalizing arranged rest with
  | nil => rw [hperm.eq_nil, List.foldl_nil]
  | cons a targets ih =>
    have ha : a ∉ arranged := fun hmem => List.disjoint_of_nodup_append hnodup hmem (List.mem_cons_self ..)
    have hmove : move (arranged ++ rest, arranged.getLast?) a =
        ((arranged ++ [a]) ++ rest.erase a, (arranged ++ [a]).getLast?) := by
      rw [move, moveAfter_append hnodup.of_append_left ha, List.getLast?_concat, List.append_assoc]
      rfl
    have hrest : (rest.erase a).Perm targets := by
      have herase := hperm.erase a
      rwa [List.erase_cons_head] at herase
    have hsplit : arranged ++ a :: targets = (arranged ++ [a]) ++ targets := by rw [List.append_assoc]; rfl
    rw [List.foldl_cons, hmove, ih (hsplit ▸ hnodup) hrest, hsplit]

/-- **The targets are the new order.** -/
theorem arrange_eq {targets l : List α} (hnodup : targets.Nodup) (hperm : l.Perm targets) :
    (targets.foldl move (l, none)).1 = targets :=
  @move_append _ _ [] targets l hnodup hperm

end

/-! ### Orders as positions -/

/-- Every position is below the bound, and none was seen before. -/
def distinctWithin (n : Nat) : List Int → List Int → Bool
  | _, [] => true
  | seen, position :: rest =>
    if position < 0 ∨ position ≥ n ∨ position ∈ seen then false else distinctWithin n (position :: seen) rest

theorem distinctWithin_iff (n : Nat) (seen positions : List Int) :
    distinctWithin n seen positions = true ↔
      (∀ position ∈ positions, 0 ≤ position ∧ position < n ∧ position ∉ seen) ∧ positions.Nodup := by
  induction positions generalizing seen with
  | nil => simp [distinctWithin]
  | cons position rest ih =>
    rw [distinctWithin]
    split
    next h =>
      refine iff_of_false Bool.false_ne_true fun hall => ?_
      obtain ⟨hlow, hhigh, hseen⟩ := hall.1 position (List.mem_cons_self ..)
      rcases h with h | h | h
      · omega
      · omega
      · exact hseen h
    next h =>
      rw [not_or, not_or] at h
      rw [ih, List.forall_mem_cons, List.nodup_cons]
      constructor
      · rintro ⟨hrest, hnodup⟩
        refine ⟨⟨⟨by omega, by omega, h.2.2⟩, fun other hother => ?_⟩, fun hmem => ?_, hnodup⟩
        · obtain ⟨hlow, hhigh, hseen⟩ := hrest other hother
          exact ⟨hlow, hhigh, fun hmem => hseen (List.mem_cons_of_mem position hmem)⟩
        · exact (hrest position hmem).2.2 (List.mem_cons_self ..)
      · rintro ⟨⟨-, hrest⟩, hfresh, hnodup⟩
        refine ⟨fun other hother => ?_, hnodup⟩
        obtain ⟨hlow, hhigh, hseen⟩ := hrest other hother
        refine ⟨hlow, hhigh, fun hmem => ?_⟩
        rcases List.mem_cons.mp hmem with rfl | hmem
        · exact hfresh hother
        · exact hseen hmem

variable {n : Nat}

/-- The position of each element, all different. -/
structure IsOrder (order : Fin n → Int) : Prop where
  range : ∀ i, 0 ≤ order i ∧ order i < n
  injective : Function.Injective order

/-- The element at a position. -/
def elementAt (order : Fin n → Int) (position : Nat) : Option (Fin n) :=
  (List.finRange n).find? fun i => order i = position

/-- The elements by position. -/
def arranged (order : Fin n → Int) : List (Fin n) := (List.range n).filterMap (elementAt order)

theorem isOrder_iff (order : Fin n → Int) :
    distinctWithin n [] ((List.finRange n).map order) = true ↔ IsOrder order := by
  rw [distinctWithin_iff]
  constructor
  · rintro ⟨hrange, hnodup⟩
    refine ⟨fun i => ?_, fun i j h => ?_⟩
    · have h := hrange (order i) (List.mem_map_of_mem (List.mem_finRange i))
      exact ⟨h.1, h.2.1⟩
    · exact List.inj_on_of_nodup_map hnodup (List.mem_finRange i) (List.mem_finRange j) h
  · rintro ⟨hrange, hinjective⟩
    refine ⟨fun position hposition => ?_, (List.nodup_finRange n).map hinjective⟩
    obtain ⟨i, -, rfl⟩ := List.mem_map.mp hposition
    exact ⟨(hrange i).1, (hrange i).2, List.not_mem_nil⟩

theorem elementAt_eq_some {order : Fin n → Int} (h : IsOrder order) {position : Nat} {i : Fin n} :
    elementAt order position = some i ↔ order i = position := by
  constructor
  · intro hfind
    exact of_decide_eq_true (List.find?_some hfind :)
  · intro hi
    rw [elementAt]
    cases hfind : (List.finRange n).find? fun i => order i = position with
    | none => exact absurd (decide_eq_true hi) (List.find?_eq_none.mp hfind i (List.mem_finRange i))
    | some j =>
      have hj : order j = position := of_decide_eq_true (List.find?_some hfind :)
      rw [h.injective (hj.trans hi.symm)]

theorem nodup_arranged {order : Fin n → Int} (h : IsOrder order) : (arranged order).Nodup := by
  refine List.Nodup.filterMap ?_ List.nodup_range
  intro a b i ha hb
  have ha := (elementAt_eq_some h).mp ha
  have hb := (elementAt_eq_some h).mp hb
  omega

theorem mem_arranged {order : Fin n → Int} (h : IsOrder order) (i : Fin n) : i ∈ arranged order := by
  have hrange := h.range i
  refine List.mem_filterMap.mpr ⟨(order i).toNat, List.mem_range.mpr (by omega), ?_⟩
  rw [elementAt_eq_some h]
  omega

/-- An order arranges all elements. -/
theorem arranged_perm {order : Fin n → Int} (h : IsOrder order) : (arranged order).Perm (List.finRange n) :=
  (List.perm_ext_iff_of_nodup (nodup_arranged h) (List.nodup_finRange n)).mpr fun i =>
    iff_of_true (mem_arranged h i) (List.mem_finRange i)

/-! ### The order of a list -/

theorem isOrder_idxOf {l : List (Fin n)} (hperm : l.Perm (List.finRange n)) : IsOrder fun i => (l.idxOf i : Int) where
  range i := by
    have hmem : i ∈ l := hperm.mem_iff.mpr (List.mem_finRange i)
    have hlt := List.idxOf_lt_length_of_mem hmem
    have hlength := hperm.length_eq
    rw [List.length_finRange] at hlength
    omega
  injective i j h := by
    have hi : i ∈ l := hperm.mem_iff.mpr (List.mem_finRange i)
    exact (List.idxOf_inj hi).mp (Int.ofNat_inj.mp h)

theorem filterMap_getElem? {α : Type} (l : List α) : (List.range l.length).filterMap (fun i => l[i]?) = l := by
  induction l using List.reverseRecOn with
  | nil => rfl
  | append_singleton l a ih =>
    have hinit : ∀ i ∈ List.range l.length, (l ++ [a])[i]? = l[i]? := fun i hi =>
      List.getElem?_append_left (List.mem_range.mp hi)
    rw [List.length_append, List.length_singleton, List.range_succ, List.filterMap_append, List.filterMap_congr hinit, ih]
    simp

/-- A list is arranged by the positions of its own elements. -/
theorem arranged_idxOf {l : List (Fin n)} (hperm : l.Perm (List.finRange n)) : arranged (fun i => (l.idxOf i : Int)) = l := by
  have hnodup : l.Nodup := hperm.nodup_iff.mpr (List.nodup_finRange n)
  have hlength : l.length = n := by rw [hperm.length_eq, List.length_finRange]
  have hfind : ∀ position ∈ List.range n, elementAt (fun i => (l.idxOf i : Int)) position = l[position]? := by
    intro position hposition
    have hlt : position < l.length := by
      rw [hlength]
      exact List.mem_range.mp hposition
    rw [List.getElem?_eq_getElem hlt, elementAt_eq_some (isOrder_idxOf hperm), hnodup.idxOf_getElem]
  have hrange : (List.range n).filterMap (fun i => l[i]?) = (List.range l.length).filterMap fun i => l[i]? :=
    congrArg (fun k => (List.range k).filterMap fun i => l[i]?) hlength.symm
  rw [arranged, List.filterMap_congr hfind, hrange, filterMap_getElem?]

end SystemMonitor.Lib.Arrange
