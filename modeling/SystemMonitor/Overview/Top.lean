import SystemMonitor.Lib.Leading
import SystemMonitor.Overview.Sample
import Mathlib.Data.Prod.Lex

/-! The processes with the highest CPU usage.

One pass over the rows keeps the indices of the first five in an array of five slots.
`lsm_overview_top_cpu_processes` returns the first five of the eligible rows in the order
of `rank` (`lsmOverviewTopCpuProcesses_eq`): by usage, then by PID, then by position. -/
namespace SystemMonitor.Overview
open Lib Leading Pages

/-! ### The pass -/

def topProcessCount : Nat := 5

def processPrecedes (left right : LsmProcessInfo) : Bool :=
  if right.cpuPercent.less left.cpuPercent then true
  else if left.cpuPercent.less right.cpuPercent then false
  else left.pid < right.pid

/-- `isfinite` and not negative. -/
def measured (process : LsmProcessInfo) : Bool :=
  match process.cpuPercent with
  | .finite percent => 0 ≤ percent
  | _ => false

structure Selection where
  indices : List Nat
  selected : Nat
  deriving DecidableEq

section
variable (processes : List LsmProcessInfo)

def processAt (index : Nat) : LsmProcessInfo := processes.getD index {}

/-- `while (position < selected && !process_precedes(…)) position++`; the loop has `selected - position` turns left. -/
def insertPosition (index : Nat) (indices : List Nat) : Nat → Nat → Nat
  | 0, position => position
  | remaining + 1, position =>
    if processPrecedes (processAt processes index) (processAt processes (indices.getD position sizeMax)) then position
    else insertPosition index indices remaining (position + 1)

/-- One turn of the pass. -/
def offer (s : Selection) (index : Nat) : Selection :=
  if measured (processAt processes index) = false then s
  else
    let position := insertPosition processes index s.indices s.selected 0
    if topProcessCount ≤ position then s
    else
      let limit := if s.selected < topProcessCount then s.selected else topProcessCount - 1
      { indices := (moveUp position limit s.indices).set position index
        selected := if s.selected < topProcessCount then s.selected + 1 else s.selected }

def lsmOverviewTopCpuProcesses : Selection :=
  (List.range processes.length).foldl (offer processes) ⟨List.replicate topProcessCount sizeMax, 0⟩

/-! ### The order -/

/-- Its usage where it is finite. -/
def usage (process : LsmProcessInfo) : ℚ :=
  match process.cpuPercent with
  | .finite percent => percent
  | _ => 0

/-- By usage, falling; then by PID; then by position. -/
def rank (index : Nat) : ℚᵒᵈ ×ₗ ℕ ×ₗ ℕ :=
  toLex (OrderDual.toDual (usage (processAt processes index)), toLex ((processAt processes index).pid, index))

/-- The indices of the eligible rows among the first `n`. -/
def eligible (n : Nat) : List Nat := (List.range n).filter fun index => measured (processAt processes index)

variable {processes}

theorem rank_injective {i j : Nat} (h : rank processes i = rank processes j) : i = j :=
  (Prod.mk.inj (toLex.injective (Prod.mk.inj (toLex.injective h)).2)).2

theorem mem_eligible {n i : Nat} : i ∈ eligible processes n ↔ i < n ∧ measured (processAt processes i) = true := by
  rw [eligible, List.mem_filter, List.mem_range]

theorem eligible_succ (n : Nat) : eligible processes (n + 1) =
    eligible processes n ++ if measured (processAt processes n) then [n] else [] := by
  rw [eligible, List.range_succ, List.filter_append, List.filter_singleton, Bool.cond_eq_ite]
  rfl

theorem cpuPercent_of_measured {process : LsmProcessInfo} (h : measured process = true) :
    process.cpuPercent = .finite (usage process) := by
  unfold measured at h
  unfold usage
  cases hpercent : process.cpuPercent with
  | finite percent => rfl
  | infinite negative =>
    rw [hpercent] at h
    cases h
  | nan =>
    rw [hpercent] at h
    cases h

/-- A row that comes later precedes an earlier one just where its rank is lower. -/
theorem processPrecedes_iff {i j : Nat} (hi : measured (processAt processes i) = true)
    (hj : measured (processAt processes j) = true) (hlater : j < i) :
    processPrecedes (processAt processes i) (processAt processes j) = true ↔ rank processes i ≤ rank processes j := by
  have hle : rank processes i ≤ rank processes j ↔ usage (processAt processes j) < usage (processAt processes i) ∨
      usage (processAt processes j) = usage (processAt processes i) ∧
        ((processAt processes i).pid < (processAt processes j).pid ∨
          (processAt processes i).pid = (processAt processes j).pid ∧ i ≤ j) := by
    rw [rank, rank, Prod.Lex.toLex_le_toLex, Prod.Lex.toLex_le_toLex]
    simp only [OrderDual.toDual_lt_toDual, OrderDual.toDual_inj]
    rw [eq_comm (a := usage (processAt processes i))]
  rw [hle, processPrecedes, cpuPercent_of_measured hi, cpuPercent_of_measured hj]
  simp only [Double.less, decide_eq_true_eq]
  rcases lt_trichotomy (usage (processAt processes i)) (usage (processAt processes j)) with hlt | heq | hgt
  · rw [if_neg (not_lt_of_gt hlt), if_pos hlt]
    exact iff_of_false Bool.false_ne_true fun h => h.elim (not_lt_of_gt hlt) fun h => absurd h.1 (ne_of_gt hlt)
  · rw [heq, if_neg (lt_irrefl _), if_neg (lt_irrefl _), decide_eq_true_iff]
    simp only [lt_irrefl, false_or, true_and]
    omega
  · rw [if_pos hgt]
    exact iff_of_true rfl (.inl hgt)

/-! ### One row -/

variable (processes) in
/-- No higher in the order. -/
def Precedes (i j : Nat) : Prop := rank processes i ≤ rank processes j

instance : DecidableRel (Precedes processes) := fun i j => inferInstanceAs (Decidable (rank processes i ≤ rank processes j))

/-- The slots hold what was chosen, and the rest are free. -/
structure Selection.Holds (s : Selection) (chosen : List Nat) : Prop where
  fits : chosen.length ≤ topProcessCount
  indices : s.indices = chosen ++ List.replicate (topProcessCount - chosen.length) sizeMax
  selected : s.selected = chosen.length

theorem insertPosition_eq {index : Nat} {before rest pad : List Nat}
    (hrest : ∀ j ∈ rest, processPrecedes (processAt processes index) (processAt processes j) = true ↔
      Precedes processes index j) :
    insertPosition processes index (before ++ rest ++ pad) rest.length before.length =
      before.length + (rest.takeWhile fun j => ¬Precedes processes index j).length := by
  induction rest generalizing before with
  | nil => rfl
  | cons j rest ih =>
    have hj := hrest j (List.mem_cons_self ..)
    have hread : (before ++ j :: rest ++ pad).getD before.length sizeMax = j := by
      rw [List.getD_eq_getElem?_getD, List.append_assoc, List.getElem?_append_right (Nat.le_refl _), Nat.sub_self]
      rfl
    rw [List.length_cons, insertPosition, hread]
    by_cases hprecedes : Precedes processes index j
    · rw [if_pos (hj.mpr hprecedes), List.takeWhile_cons_of_neg (by simpa using hprecedes)]
      rfl
    · have hnext := @ih (before ++ [j]) fun k hk => hrest k (List.mem_cons_of_mem _ hk)
      rw [List.append_assoc before [j] rest, List.singleton_append, List.length_append, List.length_singleton] at hnext
      rw [if_neg fun h => hprecedes (hj.mp h), hnext, List.takeWhile_cons_of_pos (by simpa using hprecedes),
        List.length_cons]
      omega

/-- **An eligible row is inserted where it belongs, and the sixth is dropped.** -/
theorem Selection.Holds.offer {s : Selection} {chosen : List Nat} (h : s.Holds chosen) {index : Nat}
    (hmeasured : measured (processAt processes index) = true)
    (hchosen : ∀ j ∈ chosen, measured (processAt processes j) = true ∧ j < index) :
    (offer processes s index).Holds ((chosen.orderedInsert (Precedes processes) index).take topProcessCount) := by
  have hfits := h.fits
  have hposition : insertPosition processes index s.indices s.selected 0 =
      (chosen.takeWhile fun j => ¬Precedes processes index j).length := by
    have heq := @insertPosition_eq processes index [] chosen (List.replicate (topProcessCount - chosen.length) sizeMax)
      fun j hj => processPrecedes_iff hmeasured (hchosen j hj).1 (hchosen j hj).2
    rwa [List.nil_append, List.length_nil, Nat.zero_add, ← h.indices, ← h.selected] at heq
  have hinsert := List.orderedInsert_eq_take_drop (Precedes processes) index chosen
  have hsplit := @List.takeWhile_append_dropWhile _ (fun j => ¬Precedes processes index j) chosen
  generalize (chosen.takeWhile fun j => ¬Precedes processes index j) = front at hposition hinsert hsplit
  generalize (chosen.dropWhile fun j => ¬Precedes processes index j) = back at hinsert hsplit
  have hlength : front.length + back.length = chosen.length := by rw [← hsplit, List.length_append]
  rw [hinsert, Overview.offer, if_neg (by rw [hmeasured]; decide), hposition]
  dsimp only
  by_cases hfull : topProcessCount ≤ front.length
  · have hback : back = [] := List.length_eq_zero_iff.mp (by omega)
    have hsame : (front ++ index :: back).take topProcessCount = chosen := by
      rw [← hsplit, hback, List.append_nil, List.take_append_of_le_length hfull, List.take_of_length_le (by omega)]
    rw [if_pos hfull, hsame]
    exact h
  · rw [if_neg hfull, h.selected, h.indices]
    by_cases hroom : chosen.length < topProcessCount
    · rw [if_pos hroom, if_pos hroom, moveUp_set (by omega) (by rw [List.length_append, List.length_replicate]; omega)]
      have hwhole : (front ++ index :: back).take topProcessCount = front ++ index :: back :=
        List.take_of_length_le (by rw [List.length_append, List.length_cons]; omega)
      have hpad : (chosen ++ List.replicate (topProcessCount - chosen.length) sizeMax).drop (chosen.length + 1) =
          List.replicate (topProcessCount - (chosen.length + 1)) sizeMax := by
        rw [List.drop_append, List.drop_of_length_le (Nat.le_succ _), Nat.add_sub_cancel_left, List.drop_replicate]
        rfl
      have hcount : (front ++ index :: back).length = chosen.length + 1 := by
        rw [List.length_append, List.length_cons]
        omega
      have hmiddle : chosen.length - front.length = back.length := by omega
      rw [hpad, hwhole]
      refine ⟨by omega, ?_, hcount.symm⟩
      rw [hcount, hmiddle, ← hsplit, List.append_assoc, List.take_left, List.drop_left, List.take_left, List.append_assoc]
      rfl
    · have hpad : topProcessCount - chosen.length = 0 := by omega
      rw [if_neg hroom, if_neg hroom, hpad, List.replicate_zero, List.append_nil,
        moveUp_set (by omega) (by omega)]
      have hfive : chosen.length = topProcessCount := by omega
      have hcut : (front ++ index :: back).take topProcessCount =
          front ++ index :: back.take (topProcessCount - 1 - front.length) := by
        have hone : topProcessCount - front.length = topProcessCount - 1 - front.length + 1 := by omega
        rw [List.take_append, List.take_of_length_le (by omega), hone, List.take_succ_cons]
      have hcount : (front ++ index :: back.take (topProcessCount - 1 - front.length)).length = topProcessCount := by
        rw [List.length_append, List.length_cons, List.length_take]
        omega
      have hend : chosen.drop (topProcessCount - 1 + 1) = [] := List.drop_of_length_le (by omega)
      rw [hcut, hend]
      refine ⟨by omega, ?_, by rw [hcount]; exact hfive⟩
      rw [hcount, ← hsplit, List.take_left, List.drop_left, List.append_nil, Nat.sub_self, List.replicate_zero,
        List.append_nil]

/-! ### The whole pass -/

/-- The first five of the eligible rows among the first `n`. -/
theorem holds_offers (processes : List LsmProcessInfo) (n : Nat) :
    ((List.range n).foldl (offer processes) ⟨List.replicate topProcessCount sizeMax, 0⟩).Holds
      ((sorted (rank processes) (eligible processes n)).take topProcessCount) := by
  induction n with
  | zero => exact ⟨Nat.zero_le _, rfl, rfl⟩
  | succ n ih =>
    rw [List.range_succ, List.foldl_append, eligible_succ]
    show (offer processes _ n).Holds _
    cases hmeasured : measured (processAt processes n) with
    | false =>
      rw [if_neg Bool.false_ne_true, List.append_nil, offer, if_pos hmeasured]
      exact ih
    | true =>
      have hstep := ih.offer hmeasured fun j hj =>
        have hmem := mem_eligible.mp ((sorted_perm _).mem_iff.mp (List.mem_of_mem_take hj))
        ⟨hmem.2, hmem.1⟩
      rw [take_orderedInsert] at hstep
      rw [if_pos rfl, sorted_concat fun i _ j _ => rank_injective]
      exact hstep

/-- **The pass returns the first five of the eligible rows in the order of their ranks.** -/
theorem lsmOverviewTopCpuProcesses_eq (processes : List LsmProcessInfo) :
    let first := (sorted (rank processes) (eligible processes processes.length)).take topProcessCount
    lsmOverviewTopCpuProcesses processes =
        ⟨first ++ List.replicate (topProcessCount - first.length) sizeMax, first.length⟩ ∧
      first.length = min topProcessCount (eligible processes processes.length).length ∧ first.Nodup := by
  have hholds := holds_offers processes processes.length
  dsimp only
  refine ⟨?_, ?_, ?_⟩
  · rw [← hholds.indices, ← hholds.selected]
    rfl
  · rw [List.length_take, (sorted_perm _).length_eq]
  · exact (((sorted_perm _).nodup_iff.mpr (List.nodup_range.filter _))).sublist (List.take_sublist ..)

end

end SystemMonitor.Overview
