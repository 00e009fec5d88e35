import Mathlib.Data.List.Basic

/-! Text that is published complete or not at all.

A formatter writes into a buffer it is given, and says whether what it has written is
complete. `AllOr` is what is asked of a caller's buffer: the complete text, or the
substitute it held before. Text that is rendered in private and committed when it fits
meets it (`allOr_commit`); so does a formatter whose failure is followed by the
substitute (`Formatter.allOr_orElse`). -/
namespace SystemMonitor.Lib.Rendering

abbrev Bytes := List UInt8

/-- A text cut to a buffer with its terminator. -/
def cut (capacity : Nat) (t : Bytes) : Bytes := t.take (capacity - 1)

/-- What a call returns, and the text it leaves in the buffer. -/
abbrev Outcome := Bool × Bytes

/-- A formatter never writes past the capacity, and does not report an incomplete text. -/
structure Formatter (α : Type) where
  format : α → Nat → Outcome
  complete : α → Bytes
  within : ∀ a capacity, 0 < capacity → (format a capacity).2.length < capacity
  honest : ∀ a capacity, (format a capacity).1 = true → (format a capacity).2 = complete a

/-- A formatter that has a text for everything, and leaves the front of it where it does not fit. -/
def Formatter.ofText {α : Type} (text : α → Bytes) : Formatter α where
  format a capacity := if (text a).length < capacity then (true, text a) else (false, cut capacity (text a))
  complete := text
  within a capacity hcapacity := by
    split
    next hfits => exact hfits
    next => exact Nat.lt_of_le_of_lt (List.length_take_le ..) (Nat.sub_lt hcapacity Nat.one_pos)
  honest a capacity h := by
    split at h
    next hfits => rw [if_pos hfits]
    next => cases h

/-- The complete text, whole, or the substitute, cut. -/
structure AllOr (substitute : Bytes) (capacity : Nat) (Complete : Bytes → Prop) (out : Outcome) : Prop where
  unavailable : out.1 = false → out.2 = cut capacity substitute
  complete : out.1 = true → Complete out.2 ∧ out.2.length < capacity

section
variable {substitute : Bytes} {capacity : Nat} {Complete : Bytes → Prop}

theorem allOr_refused : AllOr substitute capacity Complete (false, cut capacity substitute) where
  unavailable _ := rfl
  complete h := by cases h

theorem AllOr.mono {Other : Bytes → Prop} {out : Outcome} (h : AllOr substitute capacity Complete out)
    (hweaker : ∀ t, Complete t → Other t) : AllOr substitute capacity Other out where
  unavailable := h.unavailable
  complete hout := ⟨hweaker _ (h.complete hout).1, (h.complete hout).2⟩

/-- What has been rendered in private is committed if it fits. -/
def commit (rendered : Bytes) (buffer : Bytes) (capacity : Nat) : Outcome :=
  if rendered.length < capacity then (true, rendered) else (false, buffer)

theorem allOr_commit {rendered : Bytes} (h : Complete rendered) :
    AllOr substitute capacity Complete (commit rendered (cut capacity substitute) capacity) := by
  unfold commit
  split
  next hfits => exact ⟨fun hout => (nomatch hout), fun _ => ⟨h, hfits⟩⟩
  next => exact allOr_refused

/-- A formatter that writes into the caller's buffer, and the substitute where it fails. -/
def orElse (substitute : Bytes) (capacity : Nat) (out : Outcome) : Outcome :=
  if out.1 then (true, out.2) else (false, cut capacity substitute)

theorem Formatter.allOr_orElse {α : Type} (formatter : Formatter α) (a : α) (hcapacity : 0 < capacity) :
    AllOr substitute capacity (· = formatter.complete a) (orElse substitute capacity (formatter.format a capacity)) := by
  unfold orElse
  split
  next hout =>
    exact ⟨fun h => (nomatch h), fun _ => ⟨formatter.honest a capacity hout, formatter.within a capacity hcapacity⟩⟩
  next => exact allOr_refused

end

end SystemMonitor.Lib.Rendering
