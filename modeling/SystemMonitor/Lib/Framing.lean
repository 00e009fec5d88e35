import Mathlib.Algebra.Order.Group.Nat
import Mathlib.Data.List.Basic
import Mathlib.Tactic.Ring

/-! Walks over length-prefixed records in received bytes.

A record begins with its own length, header included, and the next one begins
at the following multiple of the alignment. The loop that walks them holds an
offset and the count of bytes that remain, which goes negative when the last
record is not padded. Reads are partial: `none` is a read outside the bytes, or a
loop that has not ended. `walk_eq` says that neither happens and that the loop is
a fold over `records`, whatever the bytes are. -/
namespace SystemMonitor.Lib

/-- `n` bytes at an offset. -/
def bytesAt (bytes : List UInt8) (offset n : Nat) : Option (List UInt8) :=
  if offset + n ≤ bytes.length then some ((bytes.drop offset).take n) else none

def littleEndian : List UInt8 → Nat
  | [] => 0
  | b :: rest => b.toNat + 256 * littleEndian rest

def uintAt (bytes : List UInt8) (offset n : Nat) : Option Nat := (bytesAt bytes offset n).map littleEndian

/-- The same integer, of a record that is known to be that long. -/
def uintOf (record : List UInt8) (offset n : Nat) : Nat := littleEndian ((record.drop offset).take n)

theorem take_drop_record (bytes : List UInt8) {offset length k n : Nat} (h : k + n ≤ length) :
    ((((bytes.drop offset).take length).drop k).take n) = (bytes.drop (offset + k)).take n := by
  rw [List.drop_take, List.take_take, List.drop_drop, Nat.min_eq_left (by omega)]

/-- A read inside a record. -/
theorem bytesAt_record {bytes : List UInt8} {offset length : Nat} (hin : offset + length ≤ bytes.length) {k n : Nat}
    (h : k + n ≤ length) :
    bytesAt bytes (offset + k) n = some ((((bytes.drop offset).take length).drop k).take n) := by
  rw [bytesAt, if_pos (by omega), take_drop_record bytes h]

theorem uintAt_record {bytes : List UInt8} {offset length : Nat} (hin : offset + length ≤ bytes.length) {k n : Nat}
    (h : k + n ≤ length) : uintAt bytes (offset + k) n = some (uintOf ((bytes.drop offset).take length) k n) := by
  rw [uintAt, bytesAt_record hin h]
  rfl

structure Framing where
  header : Nat
  /-- The bytes of the length, which come first. -/
  lengthSize : Nat
  alignment : Nat
  nonempty : 0 < header
  field : lengthSize ≤ header
  aligned : 0 < alignment

namespace Framing
variable (F : Framing)

def align (n : Nat) : Nat := (n + F.alignment - 1) / F.alignment * F.alignment

theorem le_align (n : Nat) : n ≤ F.align n := by
  have hpositive := F.aligned
  have hdiv := Nat.div_add_mod (n + F.alignment - 1) F.alignment
  have hmod := Nat.mod_lt (n + F.alignment - 1) hpositive
  have hcomm : F.align n = F.alignment * ((n + F.alignment - 1) / F.alignment) := Nat.mul_comm ..
  omega

/-- The length of the record at the offset, if there is a whole one. -/
def recordOk (bytes : List UInt8) (offset : Nat) (remaining : Int) : Option (Option Nat) :=
  if remaining < F.header then some none
  else (uintAt bytes offset F.lengthSize).map fun length =>
    if F.header ≤ length ∧ length ≤ remaining then some length else none

/-- The loop. The body may leave it, and the position then stays. -/
def walk {σ : Type} (bytes : List UInt8) (body : σ → Nat → Nat → Option (σ × Bool)) :
    Nat → σ → Nat → Int → Option (σ × Int)
  | 0, _, _, _ => none
  | fuel + 1, s, offset, remaining =>
    match F.recordOk bytes offset remaining with
    | none => none
    | some none => some (s, remaining)
    | some (some length) =>
      match body s offset length with
      | none => none
      | some (t, true) => some (t, remaining)
      | some (t, false) => walk bytes body fuel t (offset + F.align length) (remaining - F.align length)

/-! ### The records -/

/-- The length of the first record, if there is a whole one. -/
def first (bytes : List UInt8) : Option Nat :=
  if F.header ≤ bytes.length ∧ F.header ≤ uintOf bytes 0 F.lengthSize ∧ uintOf bytes 0 F.lengthSize ≤ bytes.length then
    some (uintOf bytes 0 F.lengthSize)
  else none

theorem first_eq_some {bytes : List UInt8} {length : Nat} (h : F.first bytes = some length) :
    F.header ≤ length ∧ length ≤ bytes.length := by
  unfold first at h
  split at h
  · rename_i hok
    cases h
    exact hok.2
  · cases h

def records (bytes : List UInt8) : List (List UInt8) :=
  match _ : F.first bytes with
  | none => []
  | some length => bytes.take length :: records (bytes.drop (F.align length))
termination_by bytes.length
decreasing_by
  rename_i h
  have hfirst := F.first_eq_some h
  have hpositive := F.nonempty
  have halign := F.le_align length
  rw [List.length_drop]
  omega

theorem records_none {bytes : List UInt8} (h : F.first bytes = none) : F.records bytes = [] := by
  rw [records]
  split
  · rfl
  · rename_i length hsome
    rw [h] at hsome
    cases hsome

theorem records_some {bytes : List UInt8} {length : Nat} (h : F.first bytes = some length) :
    F.records bytes = bytes.take length :: F.records (bytes.drop (F.align length)) := by
  rw [records]
  split
  · rename_i hnone
    rw [h] at hnone
    cases hnone
  · rename_i other hsome
    rw [h] at hsome
    cases hsome
    rfl

/-- What the padded records leave over; negative when the last one is not padded. -/
def leftover (bytes : List UInt8) : Int :=
  bytes.length - ((F.records bytes).map fun record => F.align record.length).sum

/-- A fold that may be left. -/
def scan {σ : Type} (f : σ → List UInt8 → σ × Bool) : σ → List (List UInt8) → σ × Bool
  | s, [] => (s, false)
  | s, record :: rest =>
    match f s record with
    | (t, true) => (t, true)
    | (t, false) => scan f t rest

theorem scan_foldl {σ : Type} (g : σ → List UInt8 → σ) (s : σ) (l : List (List UInt8)) :
    scan (fun s record => (g s record, false)) s l = (l.foldl g s, false) := by
  induction l generalizing s with
  | nil => rfl
  | cons record rest ih => exact ih _

theorem recordOk_eq {bytes : List UInt8} {offset n : Nat} (hin : offset + n ≤ bytes.length) :
    F.recordOk bytes offset n = some (F.first ((bytes.drop offset).take n)) := by
  have hlength : ((bytes.drop offset).take n).length = n := by
    rw [List.length_take, List.length_drop]
    omega
  unfold recordOk first
  rw [hlength]
  by_cases hshort : n < F.header
  · rw [if_pos (by omega), if_neg (by omega)]
  · have hfield := F.field
    have hread := uintAt_record hin (k := 0) (n := F.lengthSize) (by omega)
    rw [Nat.add_zero] at hread
    rw [if_neg (by omega), hread]
    simp only [Option.map_some, Option.some.injEq]
    congr 1
    simp only [Int.ofNat_le, eq_iff_iff]
    omega

theorem walk_short {σ : Type} (bytes : List UInt8) (body : σ → Nat → Nat → Option (σ × Bool)) {fuel : Nat}
    (hfuel : 0 < fuel) (s : σ) (offset : Nat) {remaining : Int} (h : remaining < F.header) :
    F.walk bytes body fuel s offset remaining = some (s, remaining) := by
  obtain ⟨fuel, rfl⟩ := Nat.exists_eq_succ_of_ne_zero (Nat.pos_iff_ne_zero.mp hfuel)
  rw [walk, recordOk, if_pos h]

/-- The loop ends, reads nothing outside, and folds over the records; if it was
not left early, the count says what the records leave over. -/
theorem walk_eq {σ : Type} {bytes : List UInt8} {body : σ → Nat → Nat → Option (σ × Bool)}
    {f : σ → List UInt8 → σ × Bool}
    (hbody : ∀ s offset length, offset + length ≤ bytes.length → F.header ≤ length →
      body s offset length = some (f s ((bytes.drop offset).take length)))
    (fuel : Nat) (s : σ) (offset n : Nat) (hin : offset + n ≤ bytes.length) (hfuel : n < fuel) :
    ∃ remaining, F.walk bytes body fuel s offset n =
        some ((scan f s (F.records ((bytes.drop offset).take n))).1, remaining) ∧
      ((scan f s (F.records ((bytes.drop offset).take n))).2 = false →
        remaining = F.leftover ((bytes.drop offset).take n)) := by
  induction fuel generalizing s offset n with
  | zero => omega
  | succ fuel ih =>
    have hlength : ((bytes.drop offset).take n).length = n := by
      rw [List.length_take, List.length_drop]
      omega
    rw [walk, F.recordOk_eq hin]
    cases hfirst : F.first ((bytes.drop offset).take n) with
    | none =>
      refine ⟨n, ?_, ?_⟩
      · rw [F.records_none hfirst]
        rfl
      · intro _
        rw [leftover, F.records_none hfirst, hlength]
        simp
    | some length =>
      obtain ⟨hheader, hfits⟩ := F.first_eq_some hfirst
      rw [hlength] at hfits
      have hpositive := F.nonempty
      have halign := F.le_align length
      have hrecord : ((bytes.drop offset).take n).take length = (bytes.drop offset).take length := by
        rw [List.take_take, Nat.min_eq_left hfits]
      have hrest : ((bytes.drop offset).take n).drop (F.align length) =
          (bytes.drop (offset + F.align length)).take (n - F.align length) := by
        rw [List.drop_take, List.drop_drop]
      have hrecordLength : ((bytes.drop offset).take length).length = length := by
        rw [List.length_take, List.length_drop]
        omega
      have hleft : F.leftover ((bytes.drop offset).take n) =
          (n - F.align length : Int) -
            ((F.records (((bytes.drop offset).take n).drop (F.align length))).map fun record =>
              F.align record.length).sum := by
        rw [leftover, F.records_some hfirst, hlength, hrecord, List.map_cons, List.sum_cons, hrecordLength]
        push_cast
        ring
      simp only
      rw [hbody s offset length (by omega) hheader, hleft, F.records_some hfirst, hrecord, hrest]
      cases hf : f s ((bytes.drop offset).take length) with
      | mk t leave =>
        cases leave with
        | true =>
          refine ⟨n, ?_, ?_⟩
          · simp only [scan, hf]
          · simp only [scan, hf]
            intro h
            cases h
        | false =>
          simp only [scan, hf]
          by_cases hpadded : F.align length ≤ n
          · obtain ⟨remaining, hwalk, hremaining⟩ :=
              ih t (offset + F.align length) (n - F.align length) (by omega) (by omega)
            refine ⟨remaining, ?_, ?_⟩
            · rw [← hwalk]
              congr 1
              omega
            · intro hstayed
              rw [hremaining hstayed, leftover, List.length_take, List.length_drop]
              congr 1
              omega
          · -- The last record, without its padding.
            have hnone : (bytes.drop (offset + F.align length)).take (n - F.align length) = [] := by
              rw [Nat.sub_eq_zero_of_le (by omega), List.take_zero]
            have hnofirst : F.first [] = none := by
              unfold first
              rw [if_neg]
              simp only [List.length_nil]
              omega
            rw [hnone, F.records_none hnofirst]
            refine ⟨n - F.align length, ?_, ?_⟩
            · exact F.walk_short bytes body (by omega) t _ (by omega)
            · intro _
              simp

end Framing
end SystemMonitor.Lib
