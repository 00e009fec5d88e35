import Mathlib.Algebra.Order.Floor.Ring
import Mathlib.Data.Rat.Floor
import Mathlib.Tactic.Linarith
import SystemMonitor.Common
import SystemMonitor.Lib.FixedPoint

/-! The numerals of the history file.

Integers are printed by the C library. Seconds are printed and everything is
parsed by Common, which is not part of this repository, so these functions enter
as a parameter with what the history code relies on: what was printed parses to
the printed value, and nothing out of range parses. `Numerals.documented` is an
instance. -/
namespace SystemMonitor.History
open Lib

/-- `(double)UINT64_MAX`. -/
def secondsLimit : ℚ := 2 ^ 64

def int64Min : Int := -2 ^ 63
def int64Max : Int := 2 ^ 63 - 1

/-- Bytes that may stand in a field. -/
def Printable (text : Text) : Prop := ∀ b ∈ text, b ≠ 0 ∧ b ≠ 9 ∧ b ≠ 10 ∧ b ≠ 13

structure Numerals where
  /-- The value that six decimals show. -/
  sixDecimals : ℚ → ℚ
  /-- `infiltratr_format_fixed_ascii` with six decimals and 64 bytes; `none`: it failed. -/
  formatFixed : ℚ → Option Text
  /-- `infiltratr_parse_double_range` between zero and `(double)UINT64_MAX`. -/
  parseSeconds : Text → Option ℚ
  parseU64 : Text → Option Nat
  parseI64 : Text → Option Int
  sixDecimals_near : ∀ x, |sixDecimals x - x| ≤ 1 / 2000000
  sixDecimals_idem : ∀ x, sixDecimals (sixDecimals x) = sixDecimals x
  sixDecimals_mono : ∀ x y, x ≤ y → sixDecimals x ≤ sixDecimals y
  format_parse : ∀ x, 0 ≤ x → sixDecimals x ≤ secondsLimit →
    ∃ text, formatFixed x = some text ∧ parseSeconds text = some (sixDecimals x)
  format_printable : ∀ x text, formatFixed x = some text → text.length < 64 ∧ Printable text
  parseSeconds_range : ∀ text x, parseSeconds text = some x → 0 ≤ x ∧ x ≤ secondsLimit
  parseU64_print : ∀ n, n ≤ uint64Max → parseU64 (Decimal.print n) = some n
  parseU64_range : ∀ text n, parseU64 text = some n → n ≤ uint64Max
  parseI64_print : ∀ n, int64Min ≤ n → n ≤ int64Max → parseI64 (Decimal.printInt n) = some n
  parseI64_range : ∀ text n, parseI64 text = some n → int64Min ≤ n ∧ n ≤ int64Max

/-! ### The documented behaviour -/

theorem printable_of_digits {text : Text} (h : ∀ b ∈ text, b = 45 ∨ b = 46 ∨ Decimal.isDigit b = true) :
    Printable text := by
  have hdigit : ∀ b : UInt8, Decimal.isDigit b = true → b ≠ 0 ∧ b ≠ 9 ∧ b ≠ 10 ∧ b ≠ 13 := by
    intro b hb
    refine ⟨?_, ?_, ?_, ?_⟩
    all_goals
      intro heq
      subst heq
      exact absurd hb (by decide)
  intro b hb
  rcases h b hb with rfl | rfl | hb
  · decide
  · decide
  · exact hdigit b hb

/-- Millionths, rounded. -/
def micros (x : ℚ) : Int := ⌊x * 1000000 + 1 / 2⌋

def roundSix (x : ℚ) : ℚ := (micros x : ℚ) / 1000000

theorem micros_eq (x : ℚ) : micros x = FixedPoint.units 6 x := by
  rw [micros, FixedPoint.units]
  norm_num

theorem roundSix_eq (x : ℚ) : roundSix x = FixedPoint.round 6 x := by
  rw [roundSix, micros_eq, FixedPoint.round]
  norm_num

theorem roundSix_near (x : ℚ) : |roundSix x - x| ≤ 1 / 2000000 := by
  have hnear := FixedPoint.abs_round_sub 6 x
  rw [roundSix_eq]
  norm_num at hnear ⊢
  exact hnear

def formatSix (x : ℚ) : Option Text :=
  let n := (micros x).toNat
  let text := Decimal.print (n / 1000000) ++ 46 :: Decimal.printFixed 6 (n % 1000000)
  if 0 ≤ x ∧ text.length < 64 then some text else none

def parseFixed (text : Text) : Option ℚ :=
  match Decimal.parse (text.takeWhile (· != 46)), Decimal.parse ((text.dropWhile (· != 46)).drop 1) with
  | some whole, some fraction =>
    let x : ℚ := ((whole * 1000000 + fraction : Nat) : ℚ) / 1000000
    if x ≤ secondsLimit then some x else none
  | _, _ => none

/-- The limit aside, six decimals are read. -/
theorem parseFixed_eq (text : Text) : parseFixed text = (FixedPoint.parse 6 text).filter (· ≤ secondsLimit) := by
  rw [parseFixed, FixedPoint.parse]
  cases Decimal.parse (text.takeWhile (· != 46)) with
  | none => rfl
  | some whole =>
    cases Decimal.parse ((text.dropWhile (· != 46)).drop 1) with
    | none => rfl
    | some fraction =>
      have hunits : (10 : ℚ) ^ 6 = 1000000 := by norm_num
      dsimp only
      rw [Option.filter_some, hunits, show 10 ^ 6 = 1000000 from rfl]
      simp only [decide_eq_true_eq]

theorem parseFixed_text (n : Nat) (h : (n : ℚ) / 1000000 ≤ secondsLimit) :
    parseFixed (Decimal.print (n / 1000000) ++ 46 :: Decimal.printFixed 6 (n % 1000000)) =
      some ((n : ℚ) / 1000000) := by
  have hparse : FixedPoint.parse 6 (Decimal.print (n / 1000000) ++ 46 :: Decimal.printFixed 6 (n % 1000000)) =
      some ((n : ℚ) / 10 ^ 6) := FixedPoint.parse_print (by decide) n
  norm_num at hparse
  rw [parseFixed_eq, hparse]
  exact Option.filter_some_pos (decide_eq_true h)

theorem formatSix_parseFixed (x : ℚ) (hx : 0 ≤ x) (hlimit : roundSix x ≤ secondsLimit) :
    ∃ text, formatSix x = some text ∧ parseFixed text = some (roundSix x) := by
  have hnonneg : 0 ≤ micros x := Int.floor_nonneg.mpr (by linarith)
  obtain ⟨n, hn⟩ := Int.eq_ofNat_of_zero_le hnonneg
  have hround : roundSix x = (n : ℚ) / 1000000 := by rw [roundSix, hn, Int.cast_natCast]
  have hwhole : n / 1000000 < 10 ^ 20 := by
    have hle : (n : ℚ) ≤ 2 ^ 64 * 1000000 := by
      rw [hround, secondsLimit] at hlimit
      linarith
    have hnat : n ≤ 2 ^ 64 * 1000000 := by exact_mod_cast hle
    omega
  have hlength := Decimal.length_print (by decide) hwhole
  refine ⟨Decimal.print (n / 1000000) ++ 46 :: Decimal.printFixed 6 (n % 1000000), ?_, ?_⟩
  · simp only [formatSix, hn, Int.toNat_natCast]
    apply if_pos
    refine ⟨hx, ?_⟩
    rw [List.length_append, List.length_cons, Decimal.length_printFixed]
    omega
  · rw [hround]
    exact parseFixed_text n (hround ▸ hlimit)

def Numerals.documented : Numerals where
  sixDecimals := roundSix
  formatFixed := formatSix
  parseSeconds := parseFixed
  parseU64 text := (Decimal.parse text).filter (· ≤ uint64Max)
  parseI64 text := (Decimal.parseInt text).filter fun n => int64Min ≤ n ∧ n ≤ int64Max
  sixDecimals_near := roundSix_near
  sixDecimals_idem x := by rw [roundSix_eq, roundSix_eq, FixedPoint.round_round]
  sixDecimals_mono x y h := by
    rw [roundSix_eq, roundSix_eq]
    exact FixedPoint.round_mono 6 h
  format_parse := formatSix_parseFixed
  format_printable x text h := by
    simp only [formatSix] at h
    split at h
    · rename_i hfits
      cases h
      refine ⟨hfits.2, printable_of_digits ?_⟩
      intro b hb
      rcases List.mem_append.mp hb with hb | hb
      · exact Or.inr (Or.inr (Decimal.mem_print hb))
      · rcases List.mem_cons.mp hb with rfl | hb
        · exact Or.inr (Or.inl rfl)
        · exact Or.inr (Or.inr (Decimal.mem_printFixed hb))
    · cases h
  parseSeconds_range text x h := by
    unfold parseFixed at h
    split at h
    · dsimp only at h
      split at h
      · rename_i hle
        cases h
        refine ⟨by positivity, hle⟩
      · cases h
    · cases h
  parseU64_print n hn := by simp [Decimal.parse_print, hn]
  parseU64_range text n h := by simpa using (Option.filter_eq_some_iff.mp h).2
  parseI64_print n hlow hhigh := by simp [Decimal.parseInt_printInt, hlow, hhigh]
  parseI64_range text n h := by simpa using (Option.filter_eq_some_iff.mp h).2

end SystemMonitor.History
