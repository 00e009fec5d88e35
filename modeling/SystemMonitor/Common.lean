import SystemMonitor.Lib.Decimal
import Mathlib.Algebra.Order.Field.Rat
import Mathlib.Data.List.TakeWhile
import Mathlib.Tactic.NormNum

/-! Text, machine limits, and the part of the shared Common library that the
process and history code calls.

Common is a separate repository: its sources are not part of this one, so its
arithmetic enters as a parameter, a record of functions together with what its
callers rely on (the smoke test of the Common utilities asserts the same cases).
`Arithmetic.documented` is an instance. Its text helpers enter in the same way
(`TextHelpers.documented`). -/
namespace SystemMonitor

/-- The bytes of a C string. -/
abbrev Text := List UInt8

def ascii (s : String) : Text := s.toList.map fun c => c.toNat.toUInt8

def uint64Max : Nat := 2 ^ 64 - 1
def uintMax : Nat := 2 ^ 32 - 1

/-- A `char[n]` that holds a C string: at most `n - 1` bytes before the terminator. -/
structure Chars (n : Nat) where
  text : Text
  fits : text.length ≤ n - 1
  nulFree : 0 ∉ text
  deriving DecidableEq

namespace Chars
variable {n : Nat}

/-- The buffer after `memset(…, 0, …)`. -/
def empty : Chars n := ⟨[], Nat.zero_le _, List.not_mem_nil⟩

/-- `lsm_copy_string`: the source, cut to the capacity of the destination. -/
def copyString (t : Text) (nulFree : 0 ∉ t) : Chars n :=
  ⟨t.take (n - 1), List.length_take_le .., fun hm => nulFree (List.mem_of_mem_take hm)⟩

theorem nul_notMem_takeWhile (t : Text) : 0 ∉ t.takeWhile (· != 0) :=
  fun h => absurd (List.mem_takeWhile_imp h) (by decide)

/-- A copy that stops at the first NUL. -/
def ofText (t : Text) : Chars n := copyString (t.takeWhile (· != 0)) (nul_notMem_takeWhile t)

theorem ofText_text {t : Text} (nulFree : 0 ∉ t) (fits : t.length ≤ n - 1) : (ofText t : Chars n).text = t := by
  have htake : t.takeWhile (· != 0) = t := by
    rw [List.takeWhile_eq_self_iff]
    intro b hb
    exact bne_iff_ne.mpr fun h => nulFree (h ▸ hb)
  show (t.takeWhile (· != 0)).take (n - 1) = t
  rw [htake, List.take_of_length_le fits]

theorem eq_of_text {a b : Chars n} (h : a.text = b.text) : a = b := by
  cases a
  cases b
  cases h
  rfl

theorem ofText_self (chars : Chars n) : ofText chars.text = chars := eq_of_text (ofText_text chars.nulFree chars.fits)

theorem copyString_self (chars : Chars n) : copyString chars.text chars.nulFree = chars :=
  eq_of_text (List.take_of_length_le chars.fits)

end Chars

/-- Common's integer helpers, with what their callers rely on. -/
structure Arithmetic where
  u64AddSaturating : Nat → Nat → Nat
  /-- `none`: the call returned false and left the destination alone. -/
  u64CounterDelta : Nat → Nat → Option Nat
  /-- `none`: the call returned false and stored zero. -/
  u64CounterRate : Nat → Nat → ℚ → ℚ → Option ℚ
  percentU64 : Nat → Nat → ℚ
  addSaturating_eq : ∀ a b, u64AddSaturating a b = min (a + b) uint64Max
  counterDelta_eq : ∀ current previous,
    u64CounterDelta current previous = if previous ≤ current then some (current - previous) else none
  counterRate_eq : ∀ current previous scale interval, u64CounterRate current previous scale interval =
    if previous ≤ current ∧ 0 < interval then some (((current - previous : Nat) : ℚ) * scale / interval) else none
  percent_eq : ∀ part whole,
    percentU64 part whole = if whole = 0 then 0 else min 100 ((part : ℚ) * 100 / (whole : ℚ))

/-- The documented behaviour as functions. -/
def Arithmetic.documented : Arithmetic where
  u64AddSaturating a b := min (a + b) uint64Max
  u64CounterDelta current previous := if previous ≤ current then some (current - previous) else none
  u64CounterRate current previous scale interval :=
    if previous ≤ current ∧ 0 < interval then some (((current - previous : Nat) : ℚ) * scale / interval) else none
  percentU64 part whole := if whole = 0 then 0 else min 100 ((part : ℚ) * 100 / (whole : ℚ))
  addSaturating_eq _ _ := rfl
  counterDelta_eq _ _ := rfl
  counterRate_eq _ _ _ _ := rfl
  percent_eq _ _ := rfl

theorem Arithmetic.addSaturating_le (lib : Arithmetic) (a b : Nat) : lib.u64AddSaturating a b ≤ uint64Max := by
  rw [lib.addSaturating_eq]
  exact Nat.min_le_right _ _

/-- Saturation never loses what was already there. -/
theorem Arithmetic.le_addSaturating (lib : Arithmetic) {a : Nat} (b : Nat) (h : a ≤ uint64Max) :
    a ≤ lib.u64AddSaturating a b := by
  rw [lib.addSaturating_eq]
  exact Nat.le_min.mpr ⟨Nat.le_add_right a b, h⟩

/-- In the ASCII range only. -/
def asciiToLower (b : UInt8) : UInt8 := if 65 ≤ b ∧ b ≤ 90 then b + 32 else b

/-- The bytes that `isspace` accepts in the C locale. -/
theorem space_iff (b : UInt8) : (b == 32 || (9 ≤ b && b ≤ 13)) = true ↔ b = 32 ∨ 9 ≤ b ∧ b ≤ 13 := by simp

/-- A `uint64_t` that was printed parses. -/
theorem parse_print_u64 (n : Nat) (h : n ≤ uint64Max) :
    (Lib.Decimal.parse (Lib.Decimal.print n)).filter (· ≤ uint64Max) = some n := by
  rw [Lib.Decimal.parse_print]
  exact Option.filter_some_pos (decide_eq_true h)

/-- Common's text helpers, with what their callers rely on. -/
structure TextHelpers where
  asciiEqualCi : Text → Text → Bool
  /-- A whole decimal numeral between the bounds. -/
  parseU64Range : Text → Nat → Nat → Option Nat
  equalCi_iff : ∀ a b, asciiEqualCi a b = true ↔ a.map asciiToLower = b.map asciiToLower

def TextHelpers.documented : TextHelpers where
  asciiEqualCi a b := decide (a.map asciiToLower = b.map asciiToLower)
  parseU64Range t low high := (Lib.Decimal.parse t).filter fun n => decide (low ≤ n ∧ n ≤ high)
  equalCi_iff _ _ := decide_eq_true_iff

theorem TextHelpers.equalCi_refl (text : TextHelpers) (a : Text) : text.asciiEqualCi a a = true :=
  (text.equalCi_iff a a).mpr rfl

end SystemMonitor
