import SystemMonitor.Common
import SystemMonitor.Lib.CStrings
import SystemMonitor.Lib.FixedPoint

/-! What the readers of kernel text use of Common.

Common is not part of this repository, so its trimming and its numerals enter as a
parameter with their documented behaviour. `Library.documented` is an instance. -/
namespace SystemMonitor.Procfs
open Lib

/-- A text without the bytes of one kind at its two ends. -/
def trimmed (space : UInt8 → Bool) (t : Text) : Text := ((t.dropWhile space).reverse.dropWhile space).reverse

/-- The decimal numeral that stands at the cursor behind bytes that are passed over, and
the text behind it. -/
def numeralAt (skips : UInt8 → Bool) (t : Text) : Option (Nat × Text) :=
  let start := t.dropWhile skips
  ((Decimal.parse (start.takeWhile Decimal.isDigit)).filter (· ≤ uint64Max)).map fun n =>
    (n, start.dropWhile Decimal.isDigit)

structure Library where
  asciiIsSpace : UInt8 → Bool
  trim : Text → Text
  /-- A whole decimal numeral. -/
  parseU64 : Text → Option Nat
  parseI64Range : Int → Int → Text → Option Int
  parseDoubleRange : ℚ → ℚ → Text → Option ℚ
  /-- What the token parser passes over before the digits. -/
  skips : UInt8 → Bool
  parseU64Token : Text → Option (Nat × Text)
  asciiIsSpace_iff : ∀ b, asciiIsSpace b = true ↔ b = 32 ∨ 9 ≤ b ∧ b ≤ 13
  trim_eq : ∀ t, trim t = trimmed asciiIsSpace t
  parseU64_eq : ∀ t, parseU64 t = (Decimal.parse t).filter (· ≤ uint64Max)
  parseI64Range_eq : ∀ low high t,
    parseI64Range low high t = (Decimal.parseInt t).filter fun n => low ≤ n ∧ n ≤ high
  parseDoubleRange_range : ∀ low high t x, parseDoubleRange low high t = some x → low ≤ x ∧ x ≤ high
  skips_space : skips 32 = true
  isSpace_of_skips : ∀ b, skips b = true → asciiIsSpace b = true
  parseU64Token_eq : ∀ t, parseU64Token t = numeralAt skips t

theorem parseU64_decimal (t : Text) : (fun t : Text => (Decimal.parse t).filter (· ≤ uint64Max)) t =
    (Decimal.parse t).filter (· ≤ uint64Max) := rfl

/-- The documented behaviour as functions. -/
def Library.documented : Library where
  asciiIsSpace b := b == 32 || (9 ≤ b && b ≤ 13)
  trim := trimmed fun b => b == 32 || (9 ≤ b && b ≤ 13)
  parseU64 t := (Decimal.parse t).filter (· ≤ uint64Max)
  parseI64Range low high t := (Decimal.parseInt t).filter fun n => low ≤ n ∧ n ≤ high
  parseDoubleRange low high t := (FixedPoint.parse 2 t).filter fun x => low ≤ x ∧ x ≤ high
  skips b := b == 32 || (9 ≤ b && b ≤ 13)
  parseU64Token := numeralAt fun b => b == 32 || (9 ≤ b && b ≤ 13)
  asciiIsSpace_iff := space_iff
  trim_eq _ := rfl
  parseU64_eq := parseU64_decimal
  parseI64Range_eq _ _ _ := rfl
  parseDoubleRange_range _ _ _ _ h := of_decide_eq_true (Option.filter_eq_some_iff.mp h).2
  skips_space := rfl
  isSpace_of_skips _ h := h
  parseU64Token_eq _ := rfl

variable (lib : Library)

theorem Library.not_space_of_isDigit {b : UInt8} (h : Decimal.isDigit b = true) : lib.asciiIsSpace b = false := by
  cases hspace : lib.asciiIsSpace b with
  | false => rfl
  | true =>
    rw [lib.asciiIsSpace_iff] at hspace
    have hlow : 48 ≤ b := by
      rw [Decimal.isDigit, Bool.and_eq_true, decide_eq_true_iff, decide_eq_true_iff] at h
      exact h.1
    rw [UInt8.le_iff_toNat_le] at hlow
    rcases hspace with rfl | hrange
    · exact absurd hlow (by decide)
    · have hhigh := hrange.2
      rw [UInt8.le_iff_toNat_le] at hhigh
      have hnat : (48 : UInt8).toNat ≤ (13 : UInt8).toNat := hlow.trans hhigh
      exact absurd hnat (by decide)

theorem Library.not_skips_of_isDigit {b : UInt8} (h : Decimal.isDigit b = true) : lib.skips b = false := by
  cases hskip : lib.skips b with
  | false => rfl
  | true =>
    have hspace := lib.isSpace_of_skips b hskip
    rw [lib.not_space_of_isDigit h] at hspace
    cases hspace

/-- Nothing is dropped before a numeral. -/
theorem dropWhile_print {p : UInt8 → Bool} (hp : ∀ b, Decimal.isDigit b = true → p b = false) (n : Nat) (rest : Text) :
    (Decimal.print n ++ rest).dropWhile p = Decimal.print n ++ rest := by
  cases hprint : Decimal.print n with
  | nil => exact absurd hprint (Decimal.print_ne_nil n)
  | cons b word =>
    have hb : p b = false := hp b (Decimal.mem_print (hprint ▸ List.mem_cons_self ..))
    exact List.dropWhile_cons_of_neg (by rw [hb]; exact Bool.false_ne_true)

/-- A printed numeral is read up to what is no digit. -/
theorem Library.parseU64Token_print {n : Nat} (hn : n ≤ uint64Max) {stop : UInt8} (hstop : Decimal.isDigit stop = false)
    (rest : Text) : lib.parseU64Token (Decimal.print n ++ stop :: rest) = some (n, stop :: rest) := by
  have hdigit : ∀ b ∈ Decimal.print n, Decimal.isDigit b = true := fun b hb => Decimal.mem_print hb
  have hnot : ¬ Decimal.isDigit stop = true := by
    rw [hstop]
    exact Bool.false_ne_true
  rw [lib.parseU64Token_eq, numeralAt, dropWhile_print (fun b => lib.not_skips_of_isDigit), List.takeWhile_append_of_pos hdigit,
    List.takeWhile_cons_of_neg hnot, List.append_nil, parse_print_u64 n hn, List.dropWhile_append_of_pos hdigit,
    List.dropWhile_cons_of_neg hnot]
  rfl

/-- What is trimmed stands at the two ends. -/
theorem trimmed_split (space : UInt8 → Bool) (t : Text) :
    ∃ back, t = t.takeWhile space ++ trimmed space t ++ back ∧ ∀ b ∈ back, space b = true := by
  refine ⟨((t.dropWhile space).reverse.takeWhile space).reverse, ?_, fun b hb => ?_⟩
  · rw [trimmed, List.append_assoc, ← List.reverse_append, List.takeWhile_append_dropWhile, List.reverse_reverse,
      List.takeWhile_append_dropWhile]
  · exact List.mem_takeWhile_imp (List.mem_reverse.mp hb)

/-- A trimmed text does not begin with what was trimmed. -/
theorem head_trimmed {space : UInt8 → Bool} {t rest : Text} {b : UInt8} (h : trimmed space t = b :: rest) :
    space b = false := by
  obtain ⟨back, hback, -⟩ := trimmed_split space t
  have hdrop : t.dropWhile space = trimmed space t ++ back := by
    have hsplit := List.takeWhile_append_dropWhile (p := space) (l := t)
    rw [List.append_assoc] at hback
    exact List.append_cancel_left (hsplit.trans hback)
  have hne : t.dropWhile space ≠ [] := by
    rw [hdrop, h]
    exact List.cons_ne_nil b (rest ++ back)
  have hhead := List.head_dropWhile_not space hne
  rw [h, List.cons_append] at hdrop
  simpa only [hdrop, List.head_cons] using hhead

end SystemMonitor.Procfs
