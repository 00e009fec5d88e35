import SystemMonitor.Pages.Heatmap

/-! Keys and values of a configuration file. -/
namespace SystemMonitor.Settings
open Lib Pages

/-- A key or a value that can be written, as a test. -/
def plainText (t : Text) : Bool := !t.isEmpty && t.all isPlain

theorem plainText_iff {t : Text} : plainText t = true ↔ t ≠ [] ∧ ∀ b ∈ t, isPlain b = true := by
  rw [plainText, Bool.and_eq_true, List.all_eq_true, Bool.not_eq_true', List.isEmpty_eq_false_iff]

theorem plainText_append {a b : Text} (ha : plainText a = true) (hb : plainText b = true) : plainText (a ++ b) = true := by
  rw [plainText_iff] at *
  refine ⟨List.append_ne_nil_of_left_ne_nil ha.1 b, fun c hc => ?_⟩
  rcases List.mem_append.mp hc with hc | hc
  · exact ha.2 c hc
  · exact hb.2 c hc

theorem isPlain_of_isDigit {b : UInt8} (h : Decimal.isDigit b = true) : isPlain b = true := by simp [isPlain, h]

theorem print_plain (n : Nat) : Decimal.print n ≠ [] ∧ ∀ b ∈ Decimal.print n, isPlain b = true :=
  ⟨Decimal.print_ne_nil n, fun _ hb => isPlain_of_isDigit (Decimal.mem_print hb)⟩

theorem printInt_plain (n : Int) : Decimal.printInt n ≠ [] ∧ ∀ b ∈ Decimal.printInt n, isPlain b = true := by
  refine ⟨?_, fun b hb => ?_⟩
  · cases n with
    | ofNat n => exact Decimal.print_ne_nil n
    | negSucc n => exact List.cons_ne_nil _ _
  · rcases Decimal.mem_printInt hb with rfl | hdigit
    · rfl
    · exact isPlain_of_isDigit hdigit

section
variable {numbers : Procfs.Library}

theorem parseI64Range_range {low high n : Int} {value : Text} (h : numbers.parseI64Range low high value = some n) :
    low ≤ n ∧ n ≤ high := by
  rw [numbers.parseI64Range_eq] at h
  exact of_decide_eq_true (Option.filter_eq_some_iff.mp h).2

theorem parseI64Range_print {low high : Int} {n : Nat} (h : low ≤ n ∧ n ≤ high) :
    numbers.parseI64Range low high (Decimal.print n) = some (n : Int) := by
  have hparse : Decimal.parseInt (Decimal.print n) = some (n : Int) := Decimal.parseInt_printInt (.ofNat n)
  rw [numbers.parseI64Range_eq, hparse]
  exact Option.filter_some_pos (decide_eq_true h)

theorem parseI64Range_printInt {low high n : Int} (h : low ≤ n ∧ n ≤ high) :
    numbers.parseI64Range low high (Decimal.printInt n) = some n := by
  rw [numbers.parseI64Range_eq, Decimal.parseInt_printInt]
  exact Option.filter_some_pos (decide_eq_true h)

end

end SystemMonitor.Settings
