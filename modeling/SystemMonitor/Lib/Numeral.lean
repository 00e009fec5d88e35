import Mathlib.Data.Nat.Digits.Lemmas
import Mathlib.Data.List.TakeWhile

/-! Numerals in any base and any alphabet.

An alphabet gives each digit a character and reads it back. A printed numeral is read back
as its number, with zeros before it and with anything that is no digit behind it
(`read_print`, `read_printPadded`, `takeWhile_print`). -/
namespace SystemMonitor.Lib.Numeral

structure Alphabet (γ : Type) (base : Nat) where
  digit : Nat → γ
  value : γ → Option Nat
  base_gt : 1 < base
  value_digit : ∀ d < base, value (digit d) = some d

namespace Alphabet
variable {γ : Type} {base : Nat} (A : Alphabet γ base)

def isDigit (c : γ) : Bool := (A.value c).isSome

/-- Most significant digit first. -/
def read (t : List γ) : Nat := t.foldl (fun n c => n * base + (A.value c).getD 0) 0

def print (n : Nat) : List γ := if n = 0 then [A.digit 0] else (Nat.digits base n).reverse.map A.digit

def printPadded (width n : Nat) : List γ :=
  List.replicate (width - (Nat.digits base n).length) (A.digit 0) ++ (Nat.digits base n).reverse.map A.digit

theorem value_zero : A.value (A.digit 0) = some 0 := A.value_digit 0 (Nat.zero_lt_of_lt A.base_gt)

theorem read_digits {ds : List Nat} (h : ∀ d ∈ ds, d < base) : A.read (ds.reverse.map A.digit) = Nat.ofDigits base ds := by
  induction ds with
  | nil => rfl
  | cons d ds ih =>
    have hd := A.value_digit d (h d (List.mem_cons_self ..))
    have hrest := ih fun e he => h e (List.mem_cons_of_mem _ he)
    unfold read at hrest ⊢
    rw [List.reverse_cons, List.map_append, List.foldl_append, hrest, Nat.ofDigits_cons]
    show Nat.ofDigits base ds * base + (A.value (A.digit d)).getD 0 = _
    rw [hd, Option.getD_some, Nat.mul_comm, Nat.add_comm]

theorem read_zeros (zeros : Nat) (t : List γ) : A.read (List.replicate zeros (A.digit 0) ++ t) = A.read t := by
  induction zeros with
  | zero => rfl
  | succ zeros ih =>
    rw [← ih]
    unfold read
    rw [List.replicate_succ, List.cons_append, List.foldl_cons, A.value_zero, Option.getD_some, Nat.zero_mul]

theorem read_reverse_digits (n : Nat) : A.read ((Nat.digits base n).reverse.map A.digit) = n := by
  rw [A.read_digits fun d hd => Nat.digits_lt_base A.base_gt hd, Nat.ofDigits_digits]

theorem read_printPadded (width n : Nat) : A.read (A.printPadded width n) = n := by
  rw [printPadded, read_zeros, read_reverse_digits]

theorem read_print (n : Nat) : A.read (A.print n) = n := by
  unfold print
  split
  next hzero =>
    have hread := A.read_zeros 1 []
    rw [List.append_nil] at hread
    rw [hzero]
    exact hread
  next => exact A.read_reverse_digits n

/-- The characters of a numeral are digits. -/
theorem mem_print {n : Nat} {c : γ} (h : c ∈ A.print n) : ∃ d < base, c = A.digit d := by
  unfold print at h
  split at h
  next =>
    rw [List.mem_singleton] at h
    exact ⟨0, Nat.zero_lt_of_lt A.base_gt, h⟩
  next =>
    obtain ⟨d, hd, rfl⟩ := List.mem_map.mp h
    exact ⟨d, Nat.digits_lt_base A.base_gt (List.mem_reverse.mp hd), rfl⟩

theorem mem_printPadded {width n : Nat} {c : γ} (h : c ∈ A.printPadded width n) : ∃ d < base, c = A.digit d := by
  rcases List.mem_append.mp h with hzero | hdigit
  · exact ⟨0, Nat.zero_lt_of_lt A.base_gt, List.eq_of_mem_replicate hzero⟩
  · obtain ⟨d, hd, rfl⟩ := List.mem_map.mp hdigit
    exact ⟨d, Nat.digits_lt_base A.base_gt (List.mem_reverse.mp hd), rfl⟩

theorem isDigit_digit {d : Nat} (h : d < base) : A.isDigit (A.digit d) = true := by
  rw [isDigit, A.value_digit d h]
  rfl

/-- A numeral ends where no digit follows. -/
theorem takeWhile_digits {t rest : List γ} (ht : ∀ c ∈ t, ∃ d < base, c = A.digit d)
    (hrest : ∀ c ∈ rest.head?, A.isDigit c = false) : (t ++ rest).takeWhile A.isDigit = t := by
  have hall : ∀ c ∈ t, A.isDigit c = true := by
    intro c hc
    obtain ⟨d, hd, rfl⟩ := ht c hc
    exact A.isDigit_digit hd
  rw [List.takeWhile_append_of_pos hall]
  cases rest with
  | nil => rw [List.takeWhile_nil, List.append_nil]
  | cons c rest => rw [List.takeWhile_cons_of_neg (by rw [hrest c rfl]; exact Bool.false_ne_true), List.append_nil]

theorem print_ne_nil (n : Nat) : A.print n ≠ [] := by
  unfold print
  split
  next => exact List.cons_ne_nil _ _
  next hn =>
    intro hnil
    rw [List.map_eq_nil_iff, List.reverse_eq_nil_iff, Nat.digits_eq_nil_iff_eq_zero] at hnil
    exact hn hnil

theorem printPadded_ne_nil {width n : Nat} (hwidth : 0 < width) : A.printPadded width n ≠ [] := by
  intro hnil
  obtain ⟨hzeros, hdigits⟩ := List.append_eq_nil_iff.mp hnil
  rw [List.map_eq_nil_iff, List.reverse_eq_nil_iff] at hdigits
  rw [hdigits, List.replicate_eq_nil_iff, List.length_nil] at hzeros
  omega

theorem length_printPadded (width k : Nat) {n : Nat} (hwidth : width ≤ k) (hn : n < base ^ k) :
    (A.printPadded width n).length ≤ k := by
  have hdigits : (Nat.digits base n).length ≤ k := (Nat.digits_length_le_iff A.base_gt n).mpr hn
  rw [printPadded, List.length_append, List.length_replicate, List.length_map, List.length_reverse]
  omega

/-- Without padding, a number that is not zero begins with a digit that is not zero. -/
theorem head_print {n : Nat} (hn : n ≠ 0) : ∃ d < base, d ≠ 0 ∧ (A.print n).head? = some (A.digit d) := by
  have hne : Nat.digits base n ≠ [] := Nat.digits_ne_nil_iff_ne_zero.mpr hn
  refine ⟨(Nat.digits base n).getLast hne, Nat.digits_lt_base A.base_gt (List.getLast_mem hne),
    Nat.getLast_digit_ne_zero base hn, ?_⟩
  rw [print, if_neg hn, List.head?_map, List.head?_reverse, List.getLast?_eq_some_getLast hne]
  rfl

end Alphabet

end SystemMonitor.Lib.Numeral
