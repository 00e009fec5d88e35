import Mathlib.Data.List.Nodup
import Mathlib.Data.List.Perm.Basic
import Mathlib.Data.List.Range

/-! Allocations by number.

Every allocation gets the next number, and a release is remembered. `Owns` says
that each number ever given out is either owned exactly once or was released
exactly once: nothing leaks, nothing is released twice, and nothing that is owned
was released (`Owns.nodup`,
`Owns.live`). -/
namespace SystemMonitor.Lib

structure Arena where
  next : Nat := 0
  released : List Nat := []
  deriving DecidableEq

namespace Arena

/-- After one allocation, whose number was `next`. -/
def grow (arena : Arena) : Arena := {arena with next := arena.next + 1}

def release (arena : Arena) (pointers : List Nat) : Arena :=
  {arena with released := pointers ++ arena.released}

/-- Owned exactly once or released exactly once. -/
def Owns (arena : Arena) (owned : List Nat) : Prop := (owned ++ arena.released).Perm (List.range arena.next)

variable {arena : Arena} {owned : List Nat}

theorem Owns.start : Owns {} [] := List.Perm.nil

theorem Owns.perm {other : List Nat} (h : Owns arena owned) (hperm : other.Perm owned) : Owns arena other :=
  (hperm.append_right _).trans h

theorem Owns.grow (h : Owns arena owned) : Owns arena.grow (arena.next :: owned) := by
  have hlast : (arena.next :: (owned ++ arena.released)).Perm (arena.next :: List.range arena.next) := h.cons _
  refine hlast.trans ?_
  show (arena.next :: List.range arena.next).Perm (List.range (arena.next + 1))
  rw [List.range_succ]
  exact (List.perm_append_singleton _ _).symm

theorem Owns.release {pointers : List Nat} (h : Owns arena (pointers ++ owned)) :
    Owns (arena.release pointers) owned := by
  refine List.Perm.trans ?_ h
  show (owned ++ (pointers ++ arena.released)).Perm _
  rw [← List.append_assoc]
  exact List.perm_append_comm.append_right _

theorem Owns.nodup (h : Owns arena owned) : owned.Nodup :=
  (List.nodup_append.mp (h.nodup_iff.mpr List.nodup_range)).1

theorem Owns.released_nodup (h : Owns arena owned) : arena.released.Nodup :=
  (List.nodup_append.mp (h.nodup_iff.mpr List.nodup_range)).2.1

/-- What is owned has not been released. -/
theorem Owns.live (h : Owns arena owned) {pointer : Nat} (hp : pointer ∈ owned) : pointer ∉ arena.released := by
  have hdisjoint := (List.nodup_append.mp (h.nodup_iff.mpr List.nodup_range)).2.2
  intro hreleased
  exact hdisjoint pointer hp pointer hreleased rfl

end Arena

end SystemMonitor.Lib
