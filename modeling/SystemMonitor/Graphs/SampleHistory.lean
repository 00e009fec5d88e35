import SystemMonitor.Lib.Window
import Mathlib.Algebra.Order.Field.Rat
import Mathlib.Data.List.Induction

/-! The samples behind a graph.

The history is a circular array that is full from the start and that a push moves in either
direction. What it reads as, index by index, is the window of the last pushes
(`Holds.reads`): a list of fixed length, with a new sample at the newer end for the one
that is dropped at the older end. -/
namespace SystemMonitor.Graphs
open Lib

def lsmHistoryLength : Nat := 600

structure LsmSampleHistory where
  values : Nat → ℚ
  valid : Nat → Bool
  count : Nat
  head : Nat

/-- Every slot is there from the start, and none is valid. -/
def lsmSampleHistoryInit : LsmSampleHistory where
  values _ := 0
  valid _ := false
  count := lsmHistoryLength
  head := 0

/-- A sample at a physical index; `none`: it is not finite. -/
def LsmSampleHistory.store (history : LsmSampleHistory) (index : Nat) (value : Option ℚ) : LsmSampleHistory :=
  {history with
    values := Function.update history.values index (value.getD 0)
    valid := Function.update history.valid index value.isSome}

def lsmSampleHistoryPush (history : LsmSampleHistory) (value : Option ℚ) (newerOnRight : Bool) : LsmSampleHistory :=
  let before := (history.head + lsmHistoryLength - 1) % lsmHistoryLength
  if history.count < lsmHistoryLength then
    if newerOnRight then
      {history with count := history.count + 1}.store ((history.head + history.count) % lsmHistoryLength) value
    else {history with head := before, count := history.count + 1}.store before value
  else if newerOnRight then
    {history with head := (history.head + 1) % lsmHistoryLength}.store history.head value
  else {history with head := before}.store before value

def lsmSampleHistoryGet (history : LsmSampleHistory) (logicalIndex : Nat) : ℚ :=
  if history.count ≤ logicalIndex then 0 else history.values ((history.head + logicalIndex) % lsmHistoryLength)

def lsmSampleHistoryIsValid (history : LsmSampleHistory) (logicalIndex : Nat) : Bool :=
  if history.count ≤ logicalIndex then false else history.valid ((history.head + logicalIndex) % lsmHistoryLength)

/-! ### A run of pushes -/

structure Push where
  value : Option ℚ
  newerOnRight : Bool

def pushed (pushes : List Push) : LsmSampleHistory :=
  pushes.foldl (fun history push => lsmSampleHistoryPush history push.value push.newerOnRight) lsmSampleHistoryInit

/-- The newer end is the last one or the first one. -/
def appendNewer (window : List (Option ℚ)) (push : Push) : List (Option ℚ) :=
  if push.newerOnRight then Window.pushLast window push.value else Window.pushFirst window push.value

def windowOf (pushes : List Push) : List (Option ℚ) :=
  pushes.foldl appendNewer (List.replicate lsmHistoryLength none)

/-- What the slot of a sample holds. -/
def slotOf (sample : Option ℚ) : ℚ × Bool := (sample.getD 0, sample.isSome)

/-- The history holds a window of samples. -/
structure Holds (history : LsmSampleHistory) (window : List (Option ℚ)) : Prop where
  full : history.count = lsmHistoryLength
  shows : Window.Shows lsmHistoryLength (fun i => (history.values i, history.valid i)) history.head (window.map slotOf)

theorem holds_init : Holds lsmSampleHistoryInit (List.replicate lsmHistoryLength none) := by
  refine ⟨rfl, by rw [List.length_map, List.length_replicate], by decide, fun i hi => ?_⟩
  rw [List.getElem_map, List.getElem_replicate]
  rfl

theorem slots_store (history : LsmSampleHistory) (index : Nat) (value : Option ℚ) :
    (fun i => ((history.store index value).values i, (history.store index value).valid i)) =
      Function.update (fun i => (history.values i, history.valid i)) index (slotOf value) := by
  funext i
  by_cases hi : i = index
  · subst hi
    rw [Function.update_self]
    exact Prod.ext (Function.update_self ..) (Function.update_self ..)
  · rw [Function.update_of_ne hi]
    exact Prod.ext (Function.update_of_ne hi ..) (Function.update_of_ne hi ..)

theorem Holds.push {history : LsmSampleHistory} {window : List (Option ℚ)} (h : Holds history window) (push : Push) :
    Holds (lsmSampleHistoryPush history push.value push.newerOnRight) (appendNewer window push) := by
  rw [lsmSampleHistoryPush, appendNewer, h.full, if_neg (Nat.lt_irrefl _)]
  cases push.newerOnRight with
  | true =>
    rw [if_pos rfl, if_pos rfl]
    refine ⟨rfl, ?_⟩
    rw [slots_store, Window.map_pushLast]
    exact h.shows.pushLast (slotOf push.value)
  | false =>
    rw [if_neg Bool.false_ne_true, if_neg Bool.false_ne_true]
    refine ⟨rfl, ?_⟩
    rw [slots_store, Window.map_pushFirst]
    exact h.shows.pushFirst (slotOf push.value)

theorem holds_pushed (pushes : List Push) : Holds (pushed pushes) (windowOf pushes) := by
  unfold pushed windowOf
  induction pushes using List.reverseRecOn with
  | nil => exact holds_init
  | append_singleton pushes push ih =>
    rw [List.foldl_concat, List.foldl_concat]
    exact ih.push push

/-- **Read by logical index, a history is its window.** -/
theorem Holds.reads {history : LsmSampleHistory} {window : List (Option ℚ)} (h : Holds history window) (i : Nat) :
    lsmSampleHistoryGet history i = (window[i]?.join).getD 0 ∧
      lsmSampleHistoryIsValid history i = (window[i]?.join).isSome := by
  have hlength : window.length = lsmHistoryLength := by
    rw [← h.shows.length_eq, List.length_map]
  rw [lsmSampleHistoryGet, lsmSampleHistoryIsValid, h.full]
  by_cases hi : i < lsmHistoryLength
  · have hslot := h.shows.getElem? hi
    have hlt : i < window.length := by rwa [hlength]
    rw [List.getElem?_map, List.getElem?_eq_getElem hlt, Option.map_some, Option.some_inj] at hslot
    rw [if_neg (Nat.not_le.mpr hi), if_neg (Nat.not_le.mpr hi), List.getElem?_eq_getElem hlt]
    exact ⟨(congrArg Prod.fst hslot).symm, (congrArg Prod.snd hslot).symm⟩
  · have hle := Nat.le_of_not_lt hi
    rw [if_pos hle, if_pos hle, List.getElem?_eq_none (by rwa [hlength])]
    exact ⟨rfl, rfl⟩

theorem length_windowOf (pushes : List Push) : (windowOf pushes).length = lsmHistoryLength := by
  rw [← (holds_pushed pushes).shows.length_eq, List.length_map]

end SystemMonitor.Graphs
