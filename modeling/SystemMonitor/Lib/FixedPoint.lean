import Mathlib.Algebra.Order.Floor.Ring
import Mathlib.Data.List.TakeWhile
import Mathlib.Data.Rat.Floor
import Mathlib.Tactic.FieldSimp
import Mathlib.Tactic.Linarith
import Mathlib.Tactic.Positivity
import SystemMonitor.Lib.Decimal

/-! Numerals with a fixed number of decimals.

A rational is rounded to units of its last decimal. A number of units is printed with a
point and read back (`parse_print`). -/
namespace SystemMonitor.Lib.FixedPoint

/-- The nearest number of units of decimal `k`. -/
def units (k : Nat) (x : ℚ) : Int := ⌊x * 10 ^ k + 1 / 2⌋

def round (k : Nat) (x : ℚ) : ℚ := units k x / 10 ^ k

variable (k : Nat)

theorem round_mul (x : ℚ) : round k x * 10 ^ k = units k x := div_mul_cancel₀ _ (by positivity)

theorem abs_round_sub (x : ℚ) : |round k x - x| ≤ 1 / (2 * 10 ^ k) := by
  have hpos : (0 : ℚ) < 10 ^ k := by positivity
  have hlow := Int.floor_le (x * 10 ^ k + 1 / 2)
  have hhigh := Int.lt_floor_add_one (x * 10 ^ k + 1 / 2)
  have hunits : |(units k x : ℚ) - x * 10 ^ k| ≤ 1 / 2 := by
    rw [units, abs_le]
    constructor
    · linarith
    · linarith
  rw [← round_mul, ← sub_mul, abs_mul, abs_of_pos hpos, ← le_div_iff₀ hpos] at hunits
  rwa [div_div] at hunits

theorem units_of_mul {x : ℚ} {n : Int} (h : x * 10 ^ k = n) : units k x = n := by
  rw [units, h, Int.floor_eq_iff]
  constructor
  · linarith
  · linarith

theorem round_round (x : ℚ) : round k (round k x) = round k x := by
  rw [round, units_of_mul k (round_mul k x), round]

theorem round_int (n : Int) : round k n = n := by
  have hmul : (n : ℚ) * 10 ^ k = (n * 10 ^ k : Int) := by push_cast; rfl
  rw [round, units_of_mul k hmul, ← hmul, mul_div_cancel_right₀]
  positivity

theorem units_mono {x y : ℚ} (h : x ≤ y) : units k x ≤ units k y := by
  apply Int.floor_le_floor
  gcongr

theorem round_mono {x y : ℚ} (h : x ≤ y) : round k x ≤ round k y := by
  have hunits := units_mono k h
  rw [round, round]
  gcongr

/-! ### Numerals -/

/-- The numeral of a number of units. -/
def print (n : Nat) : List UInt8 := Decimal.print (n / 10 ^ k) ++ 46 :: Decimal.printFixed k (n % 10 ^ k)

def parse (text : List UInt8) : Option ℚ :=
  match Decimal.parse (text.takeWhile (· != 46)), Decimal.parse ((text.dropWhile (· != 46)).drop 1) with
  | some whole, some fraction => some (((whole * 10 ^ k + fraction : Nat) : ℚ) / 10 ^ k)
  | _, _ => none

theorem print_noPoint {n : Nat} {b : UInt8} (hb : b ∈ Decimal.print n) : (b != 46) = true := by
  rw [bne_iff_ne]
  intro heq
  subst heq
  exact absurd (Decimal.mem_print hb) (by decide)

variable {k}

theorem parse_print (hk : 0 < k) (n : Nat) : parse k (print k n) = some ((n : ℚ) / 10 ^ k) := by
  have hfraction : n % 10 ^ k < 10 ^ k := Nat.mod_lt _ (by positivity)
  have htotal : n / 10 ^ k * 10 ^ k + n % 10 ^ k = n := Nat.div_add_mod' n (10 ^ k)
  rw [parse, print, List.takeWhile_append_of_pos fun _ => print_noPoint,
    List.dropWhile_append_of_pos fun _ => print_noPoint, List.takeWhile_cons_of_neg (by decide),
    List.dropWhile_cons_of_neg (by decide), List.append_nil, List.drop_succ_cons, List.drop_zero,
    Decimal.parse_print, Decimal.parse_printFixed hk hfraction]
  simp only [htotal]

theorem mem_print {n : Nat} {b : UInt8} (h : b ∈ print k n) : b = 46 ∨ Decimal.isDigit b = true := by
  rcases List.mem_append.mp h with hb | hb
  · exact Or.inr (Decimal.mem_print hb)
  · rcases List.mem_cons.mp hb with rfl | hb
    · exact Or.inl rfl
    · exact Or.inr (Decimal.mem_printFixed hb)

end SystemMonitor.Lib.FixedPoint
