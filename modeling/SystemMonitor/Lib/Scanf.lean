import SystemMonitor.Lib.Decimal
import SystemMonitor.Lib.Numeral

/-! Reading a C string directive by directive, as `sscanf` does.

A directive takes the text it stands at, and gives what it stored and the text behind it;
`none` is a matching failure. What was printed where a directive reads is read back as it
was (`scanUnsigned_digits`, `scanWord_word`). -/
namespace SystemMonitor.Lib.Scanf
open Numeral

abbrev Bytes := List UInt8

/-- `isspace` in the C locale. -/
def isSpace (b : UInt8) : Bool := b == 32 || (9 ≤ b && b ≤ 13)

/-- White space in the format. -/
def skipSpace (t : Bytes) : Bytes := t.dropWhile isSpace

/-- A character in the format. -/
def scanChar (c : UInt8) : Bytes → Option Bytes
  | [] => none
  | b :: t => if b = c then some t else none

/-- `%s` with a width. -/
def scanWord (width : Nat) (t : Bytes) : Option (Bytes × Bytes) :=
  let start := skipSpace t
  let word := (start.take width).takeWhile fun b => !isSpace b
  if word = [] then none else some (word, start.drop word.length)

/-- Whether a minus stands at the front, and the text behind the sign. -/
def scanSign : Bytes → Bool × Bytes
  | [] => (false, [])
  | b :: t => if b = 45 then (true, t) else if b = 43 then (false, t) else (false, b :: t)

/-- A hexadecimal number may have `0x` before its digits. -/
def skipMark (base : Nat) : Bytes → Bytes
  | [] => []
  | [b] => [b]
  | b :: c :: t => if base = 16 ∧ b = 48 ∧ (c = 120 ∨ c = 88) then t else b :: c :: t

/-- `strtoull`: out of range is the greatest value, and a minus negates modulo the word. -/
def unsignedValue (bits : Nat) (negative : Bool) (n : Nat) : Nat :=
  if 2 ^ bits ≤ n then 2 ^ bits - 1 else if negative then (2 ^ bits - n) % 2 ^ bits else n

/-- `%u`, or `%x`, by the alphabet. -/
def scanUnsigned {base : Nat} (A : Alphabet UInt8 base) (bits : Nat) (t : Bytes) : Option (Nat × Bytes) :=
  let signed := scanSign (skipSpace t)
  let start := skipMark base signed.2
  let digits := start.takeWhile A.isDigit
  if digits = [] then none else some (unsignedValue bits signed.1 (A.read digits), start.drop digits.length)

/-! ### Alphabets -/

def decimal : Alphabet UInt8 10 where
  digit := Decimal.toByte
  value b := if Decimal.isDigit b then some (Decimal.ofByte b) else none
  base_gt := by decide
  value_digit := by decide

def hexDigit (d : Nat) : UInt8 := if d < 10 then (48 + d).toUInt8 else (87 + d).toUInt8

def hexValue (b : UInt8) : Option Nat :=
  if 48 ≤ b ∧ b ≤ 57 then some (b.toNat - 48)
  else if 97 ≤ b ∧ b ≤ 102 then some (b.toNat - 87)
  else if 65 ≤ b ∧ b ≤ 70 then some (b.toNat - 55)
  else none

/-- Printed in small letters, read in both. -/
def hexadecimal : Alphabet UInt8 16 where
  digit := hexDigit
  value := hexValue
  base_gt := by decide
  value_digit := by decide

/-- A digit is nothing that a number could begin with otherwise. -/
def Plain {base : Nat} (A : Alphabet UInt8 base) : Prop :=
  ∀ d < base, isSpace (A.digit d) = false ∧ A.digit d ≠ 45 ∧ A.digit d ≠ 43 ∧ A.digit d ≠ 120 ∧ A.digit d ≠ 88

theorem plain_decimal : Plain decimal := by
  unfold Plain
  decide

theorem plain_hexadecimal : Plain hexadecimal := by
  unfold Plain
  decide

theorem digits_decimal {fuel n : Nat} (h : n ≤ fuel) : Decimal.digits fuel n = Nat.digits 10 n := by
  induction fuel generalizing n with
  | zero =>
    obtain rfl := Nat.le_zero.mp h
    rfl
  | succ fuel ih =>
    rw [Decimal.digits]
    split
    next hzero => rw [hzero, Nat.digits_zero]
    next hn => rw [Nat.digits_eq_cons_digits_div (by decide) hn, ih (by omega)]

theorem print_decimal (n : Nat) : decimal.print n = Decimal.print n := by
  rw [Alphabet.print, Decimal.print, digits_decimal le_rfl]
  rfl

/-! ### What was printed is read back -/

section
variable {base : Nat} {A : Alphabet UInt8 base} {t word rest : Bytes}

theorem skipSpace_space {b : UInt8} (hb : isSpace b = true) (t : Bytes) : skipSpace (b :: t) = skipSpace t :=
  List.dropWhile_cons_of_pos hb

theorem skipSpace_of_not {b : UInt8} (hb : isSpace b = false) (t : Bytes) : skipSpace (b :: t) = b :: t :=
  List.dropWhile_cons_of_neg (by rw [hb]; exact Bool.false_ne_true)

theorem scanUnsigned_space {b : UInt8} (hb : isSpace b = true) (bits : Nat) (t : Bytes) :
    scanUnsigned A bits (b :: t) = scanUnsigned A bits t := by
  unfold scanUnsigned
  rw [skipSpace_space hb]

theorem scanWord_space {b : UInt8} (hb : isSpace b = true) (width : Nat) (t : Bytes) :
    scanWord width (b :: t) = scanWord width t := by
  unfold scanWord
  rw [skipSpace_space hb]

/-- A numeral without a sign or a mark, up to what is no digit. -/
theorem scanUnsigned_digits {bits : Nat} (hplain : Plain A) (hdigits : ∀ c ∈ t, ∃ d < base, c = A.digit d) (hne : t ≠ [])
    (hvalue : A.read t < 2 ^ bits) {stop : UInt8} (hstop : A.isDigit stop = false) (hmark : stop ≠ 120 ∧ stop ≠ 88) :
    scanUnsigned A bits (t ++ stop :: rest) = some (A.read t, stop :: rest) := by
  obtain ⟨c, t, rfl⟩ := List.exists_cons_of_ne_nil hne
  obtain ⟨d, hd, rfl⟩ := hdigits c (List.mem_cons_self ..)
  obtain ⟨hspace, hminus, hplus, -⟩ := hplain d hd
  have hsign : scanSign (skipSpace (A.digit d :: t ++ stop :: rest)) = (false, A.digit d :: t ++ stop :: rest) := by
    rw [List.cons_append, skipSpace_of_not hspace, scanSign, if_neg hminus, if_neg hplus]
  have hkept : skipMark base (A.digit d :: t ++ stop :: rest) = A.digit d :: t ++ stop :: rest := by
    cases t with
    | nil => exact if_neg fun h => h.2.2.elim hmark.1 hmark.2
    | cons e t =>
      obtain ⟨e, he, rfl⟩ := hdigits e (List.mem_cons_of_mem _ (List.mem_cons_self ..))
      obtain ⟨-, -, -, hx, hX⟩ := hplain e he
      exact if_neg fun h => h.2.2.elim hx hX
  have htaken : (A.digit d :: t ++ stop :: rest).takeWhile A.isDigit = A.digit d :: t :=
    A.takeWhile_digits hdigits fun c hc => by cases hc; exact hstop
  unfold scanUnsigned
  dsimp only
  rw [hsign, hkept, htaken, if_neg hne, List.drop_left, unsignedValue, if_neg (Nat.not_le.mpr hvalue),
    if_neg Bool.false_ne_true]

theorem scanUnsigned_print {bits : Nat} (hplain : Plain A) {n : Nat} (hn : n < 2 ^ bits) {stop : UInt8}
    (hstop : A.isDigit stop = false) (hmark : stop ≠ 120 ∧ stop ≠ 88) :
    scanUnsigned A bits (A.print n ++ stop :: rest) = some (n, stop :: rest) := by
  have hscan : scanUnsigned A bits (A.print n ++ stop :: rest) = some (A.read (A.print n), stop :: rest) :=
    scanUnsigned_digits hplain (fun c => A.mem_print) (A.print_ne_nil n) (by rwa [A.read_print]) hstop hmark
  rwa [A.read_print] at hscan

theorem scanUnsigned_printPadded {bits width : Nat} (hplain : Plain A) (hwidth : 0 < width) {n : Nat} (hn : n < 2 ^ bits)
    {stop : UInt8} (hstop : A.isDigit stop = false) (hmark : stop ≠ 120 ∧ stop ≠ 88) :
    scanUnsigned A bits (A.printPadded width n ++ stop :: rest) = some (n, stop :: rest) := by
  have hscan : scanUnsigned A bits (A.printPadded width n ++ stop :: rest) =
      some (A.read (A.printPadded width n), stop :: rest) :=
    scanUnsigned_digits hplain (fun c => A.mem_printPadded) (A.printPadded_ne_nil hwidth) (by rwa [A.read_printPadded])
      hstop hmark
  rwa [A.read_printPadded] at hscan

/-- A word up to white space. -/
theorem scanWord_word {width : Nat} (hword : ∀ b ∈ word, isSpace b = false) (hne : word ≠ []) (hwidth : word.length ≤ width)
    {stop : UInt8} (hstop : isSpace stop = true) :
    scanWord width (word ++ stop :: rest) = some (word, stop :: rest) := by
  have hstart : skipSpace (word ++ stop :: rest) = word ++ stop :: rest := by
    obtain ⟨b, word, rfl⟩ := List.exists_cons_of_ne_nil hne
    exact skipSpace_of_not (hword b (List.mem_cons_self ..)) _
  have hall : ∀ b ∈ word, (!isSpace b) = true := fun b hb => by rw [hword b hb]; rfl
  have htaken : ((word ++ stop :: rest).take width).takeWhile (fun b => !isSpace b) = word := by
    rw [List.take_append, List.take_of_length_le hwidth, List.takeWhile_append_of_pos hall]
    cases width - word.length with
    | zero => rw [List.take_zero, List.takeWhile_nil, List.append_nil]
    | succ left => rw [List.take_succ_cons, List.takeWhile_cons_of_neg (by rw [hstop]; exact Bool.false_ne_true), List.append_nil]
  unfold scanWord
  dsimp only
  rw [hstart, htaken, if_neg hne, List.drop_left]

end

end SystemMonitor.Lib.Scanf
