import Mathlib.Algebra.Order.Field.Rat

/-! Decimal numerals as bytes. -/
namespace SystemMonitor.Lib.Decimal

/-- Least significant digit first; the number itself is fuel enough. -/
def digits : Nat → Nat → List Nat
  | 0, _ => []
  | fuel + 1, n => if n = 0 then [] else n % 10 :: digits fuel (n / 10)

def value (ds : List Nat) : Nat := ds.foldr (fun d v => d + 10 * v) 0

theorem value_digits (fuel n : Nat) (h : n ≤ fuel) : value (digits fuel n) = n := by
  induction fuel generalizing n with
  | zero =>
    have : n = 0 := by omega
    subst this
    rfl
  | succ fuel ih =>
    by_cases hn : n = 0
    · simp [digits, value, hn]
    · have hrest := ih (n / 10) (by omega)
      simp only [value] at hrest
      simp only [digits, hn, if_false, value, List.foldr_cons, hrest]
      omega

theorem digits_lt (fuel n : Nat) : ∀ d ∈ digits fuel n, d < 10 := by
  induction fuel generalizing n with
  | zero =>
    intro d hd
    cases hd
  | succ fuel ih =>
    intro d hd
    by_cases hn : n = 0
    · simp [digits, hn] at hd
    · simp only [digits, hn, if_false, List.mem_cons] at hd
      rcases hd with rfl | hd
      · omega
      · exact ih _ d hd

theorem value_lt {ds : List Nat} (h : ∀ d ∈ ds, d < 10) : value ds < 10 ^ ds.length := by
  induction ds with
  | nil => exact Nat.one_pos
  | cons d ds ih =>
    have hd := h d (List.mem_cons_self ..)
    have hrest := ih fun e he => h e (List.mem_cons_of_mem d he)
    rw [List.length_cons, Nat.pow_succ]
    show d + 10 * value ds < _
    omega

def toByte (d : Nat) : UInt8 := (48 + d).toUInt8
def ofByte (b : UInt8) : Nat := b.toNat - 48
def isDigit (b : UInt8) : Bool := 48 ≤ b && b ≤ 57

theorem ofByte_toByte {d : Nat} (h : d < 10) : ofByte (toByte d) = d := by
  simp [ofByte, toByte, Nat.toUInt8, UInt8.toNat_ofNat']
  omega

theorem isDigit_toByte {d : Nat} (h : d < 10) : isDigit (toByte d) = true := by
  have : ∀ d < 10, isDigit (toByte d) = true := by decide
  exact this d h

theorem map_ofByte_toByte {ds : List Nat} (h : ∀ d ∈ ds, d < 10) : ds.map (ofByte ∘ toByte) = ds := by
  conv_rhs => rw [← List.map_id ds]
  apply List.map_congr_left
  intro d hd
  exact ofByte_toByte (h d hd)

/-- The numeral without leading zeros. -/
def print (n : Nat) : List UInt8 := if n = 0 then [48] else (digits n n).reverse.map toByte

/-- The number an all-digit text denotes. -/
def parse (t : List UInt8) : Option Nat :=
  if t ≠ [] ∧ t.all isDigit then some (value (t.reverse.map ofByte)) else none

theorem print_all (n : Nat) : (print n).all isDigit = true := by
  unfold print
  by_cases hn : n = 0
  · rw [if_pos hn]
    rfl
  · rw [if_neg hn, List.all_eq_true]
    intro b hb
    obtain ⟨d, hd, rfl⟩ := List.mem_map.mp hb
    exact isDigit_toByte (digits_lt n n d (List.mem_reverse.mp hd))

theorem print_ne_nil (n : Nat) : print n ≠ [] := by
  unfold print
  by_cases hn : n = 0
  · rw [if_pos hn]
    simp
  · rw [if_neg hn]
    obtain ⟨m, rfl⟩ := Nat.exists_eq_succ_of_ne_zero hn
    simp [digits]

theorem parse_print (n : Nat) : parse (print n) = some n := by
  unfold parse
  rw [if_pos ⟨print_ne_nil n, print_all n⟩]
  congr 1
  unfold print
  by_cases hn : n = 0
  · rw [if_pos hn, hn]
    rfl
  · rw [if_neg hn, ← List.map_reverse, List.reverse_reverse, List.map_map, map_ofByte_toByte (digits_lt n n)]
    exact value_digits n n (Nat.le_refl n)

theorem length_digits (fuel n k : Nat) (h : n < 10 ^ k) : (digits fuel n).length ≤ k := by
  induction fuel generalizing n k with
  | zero => exact Nat.zero_le _
  | succ fuel ih =>
    by_cases hn : n = 0
    · simp [digits, hn]
    · cases k with
      | zero =>
        rw [Nat.pow_zero] at h
        omega
      | succ k =>
        have hdiv : n / 10 < 10 ^ k := by
          rw [Nat.pow_succ] at h
          omega
        have hrest := ih (n / 10) k hdiv
        simp only [digits, hn, if_false, List.length_cons]
        omega

theorem length_print {n k : Nat} (hk : 0 < k) (h : n < 10 ^ k) : (print n).length ≤ k := by
  unfold print
  by_cases hn : n = 0
  · rw [if_pos hn]
    exact hk
  · rw [if_neg hn, List.length_map, List.length_reverse]
    exact length_digits n n k h

theorem mem_print {n : Nat} {b : UInt8} (h : b ∈ print n) : isDigit b = true :=
  List.all_eq_true.mp (print_all n) b h

/-! ### A fixed number of digits -/

def fixedDigits : Nat → Nat → List Nat
  | 0, _ => []
  | width + 1, n => n % 10 :: fixedDigits width (n / 10)

theorem value_fixedDigits (width n : Nat) : value (fixedDigits width n) = n % 10 ^ width := by
  induction width generalizing n with
  | zero => simp [fixedDigits, value, Nat.mod_one]
  | succ width ih =>
    have hrest := ih (n / 10)
    simp only [value] at hrest
    simp only [fixedDigits, value, List.foldr_cons, hrest, Nat.pow_succ]
    rw [Nat.mul_comm (10 ^ width) 10, Nat.mod_mul]

theorem fixedDigits_lt (width n : Nat) : ∀ d ∈ fixedDigits width n, d < 10 := by
  induction width generalizing n with
  | zero =>
    intro d hd
    cases hd
  | succ width ih =>
    intro d hd
    rcases List.mem_cons.mp hd with rfl | hd
    · omega
    · exact ih _ d hd

theorem length_fixedDigits (width n : Nat) : (fixedDigits width n).length = width := by
  induction width generalizing n with
  | zero => rfl
  | succ width ih => rw [fixedDigits, List.length_cons, ih]

/-- The numeral of the last `width` digits, zeros included. -/
def printFixed (width n : Nat) : List UInt8 := (fixedDigits width n).reverse.map toByte

theorem mem_printFixed {width n : Nat} {b : UInt8} (h : b ∈ printFixed width n) : isDigit b = true := by
  obtain ⟨d, hd, rfl⟩ := List.mem_map.mp h
  exact isDigit_toByte (fixedDigits_lt width n d (List.mem_reverse.mp hd))

theorem parse_printFixed {width n : Nat} (hwidth : 0 < width) (h : n < 10 ^ width) :
    parse (printFixed width n) = some n := by
  have hne : printFixed width n ≠ [] := by
    intro hnil
    have hlength := congrArg List.length hnil
    rw [printFixed, List.length_map, List.length_reverse, length_fixedDigits] at hlength
    exact Nat.ne_of_gt hwidth hlength
  unfold parse
  rw [if_pos ⟨hne, List.all_eq_true.mpr fun b hb => mem_printFixed hb⟩]
  rw [printFixed, ← List.map_reverse, List.reverse_reverse, List.map_map,
    map_ofByte_toByte (fixedDigits_lt width n), value_fixedDigits, Nat.mod_eq_of_lt h]

theorem length_printFixed (width n : Nat) : (printFixed width n).length = width := by
  rw [printFixed, List.length_map, List.length_reverse, length_fixedDigits]

/-- A digit is the numeral of its value. -/
theorem toByte_ofByte {b : UInt8} (h : isDigit b = true) : toByte (ofByte b) = b := by
  have hle : 48 ≤ b := by
    rw [isDigit, Bool.and_eq_true, decide_eq_true_iff, decide_eq_true_iff] at h
    exact h.1
  have hnat : 48 ≤ b.toNat := UInt8.le_iff_toNat_le.mp hle
  rw [toByte, ofByte, Nat.add_sub_cancel' hnat]
  exact UInt8.ofNat_toNat

theorem ofByte_lt {b : UInt8} (h : isDigit b = true) : ofByte b < 10 := by
  have hle : b ≤ 57 := by
    rw [isDigit, Bool.and_eq_true, decide_eq_true_iff, decide_eq_true_iff] at h
    exact h.2
  have hnat : b.toNat ≤ 57 := UInt8.le_iff_toNat_le.mp hle
  rw [ofByte]
  omega

theorem printFixed_two (n : Nat) : printFixed 2 n = [toByte (n / 10 % 10), toByte (n % 10)] := rfl

theorem printFixed_four {high low : Nat} (hlow : low < 100) :
    printFixed 4 (high * 100 + low) = printFixed 2 high ++ printFixed 2 low := by
  have hdigits : printFixed 4 (high * 100 + low) = [toByte ((high * 100 + low) / 10 / 10 / 10 % 10),
    toByte ((high * 100 + low) / 10 / 10 % 10), toByte ((high * 100 + low) / 10 % 10),
    toByte ((high * 100 + low) % 10)] := rfl
  have hhundreds : (high * 100 + low) / 10 / 10 = high := by omega
  have htens : (high * 100 + low) / 10 % 10 = low / 10 % 10 := by omega
  have hunits : (high * 100 + low) % 10 = low % 10 := by omega
  rw [hdigits, hhundreds, htens, hunits]
  rfl

/-- The digits there are, and zeros behind them. -/
theorem fixedDigits_eq {fuel width n : Nat} (hfuel : n ≤ fuel) (h : n < 10 ^ width) :
    fixedDigits width n = digits fuel n ++ List.replicate (width - (digits fuel n).length) 0 := by
  induction width generalizing fuel n with
  | zero =>
    have hzero : n = 0 := by
      rw [Nat.pow_zero] at h
      omega
    subst hzero
    cases fuel <;> rfl
  | succ width ih =>
    cases n with
    | zero =>
      have hrest := ih (Nat.zero_le fuel) (Nat.pow_pos (n := width) (by decide : 0 < 10))
      have hnil : digits fuel 0 = [] := by cases fuel <;> rfl
      rw [hnil, List.nil_append, List.length_nil, Nat.sub_zero] at hrest ⊢
      rw [fixedDigits, Nat.zero_div, hrest]
      rfl
    | succ n =>
      obtain ⟨fuel, rfl⟩ := Nat.exists_eq_succ_of_ne_zero (Nat.ne_of_gt (Nat.lt_of_lt_of_le (Nat.succ_pos n) hfuel))
      have hdiv : (n + 1) / 10 < 10 ^ width := by
        rw [Nat.pow_succ] at h
        omega
      have hfuel : (n + 1) / 10 ≤ fuel := by omega
      rw [fixedDigits, ih hfuel hdiv, digits, if_neg (Nat.succ_ne_zero n), List.cons_append,
        List.length_cons, Nat.add_sub_add_right]

/-- The numeral in at least `width` digits. -/
def printPadded (width n : Nat) : List UInt8 := List.replicate (width - (print n).length) 48 ++ print n

theorem printPadded_eq {width n : Nat} (hwidth : 0 < width) (h : n < 10 ^ width) :
    printPadded width n = printFixed width n := by
  have hzeros : ∀ k, (List.replicate k 0).map toByte = List.replicate k 48 := fun k => List.map_replicate
  rw [printFixed, fixedDigits_eq (Nat.le_refl n) h, List.reverse_append, List.reverse_replicate, List.map_append,
    hzeros, printPadded]
  cases n with
  | zero =>
    obtain ⟨width, rfl⟩ := Nat.exists_eq_succ_of_ne_zero (Nat.ne_of_gt hwidth)
    show List.replicate width 48 ++ [48] = List.replicate (width + 1) 48 ++ []
    rw [List.append_nil, List.replicate_succ']
  | succ n =>
    have hprint : print (n + 1) = (digits (n + 1) (n + 1)).reverse.map toByte := if_neg (Nat.succ_ne_zero n)
    rw [hprint, List.length_map, List.length_reverse]

/-- A numeral of as many digits as the width has needs no zeros. -/
theorem print_eq_printFixed {width n : Nat} (hlow : 10 ^ width ≤ n) (hhigh : n < 10 ^ (width + 1)) :
    print n = printFixed (width + 1) n := by
  have hpos : n ≠ 0 := Nat.ne_of_gt (Nat.lt_of_lt_of_le (Nat.pow_pos (by decide)) hlow)
  have hprint : (print n).length = (digits n n).length := by
    rw [print, if_neg hpos, List.length_map, List.length_reverse]
  have hvalue : n < 10 ^ (digits n n).length := by
    have hlt := value_lt (digits_lt n n)
    rwa [value_digits n n (Nat.le_refl n)] at hlt
  have hlength : width + 1 ≤ (print n).length := by
    rw [hprint]
    exact (Nat.pow_lt_pow_iff_right (by decide)).mp (Nat.lt_of_le_of_lt hlow hvalue)
  rw [← printPadded_eq (Nat.succ_pos width) hhigh, printPadded, Nat.sub_eq_zero_of_le hlength]
  rfl

/-! ### Signed numerals -/

def printInt : Int → List UInt8
  | .ofNat n => print n
  | .negSucc n => 45 :: print (n + 1)

def parseInt (t : List UInt8) : Option Int :=
  match t with
  | 45 :: rest => (parse rest).map fun n => -(n : Int)
  | _ => (parse t).map Int.ofNat

theorem parseInt_printInt (n : Int) : parseInt (printInt n) = some n := by
  cases n with
  | ofNat n =>
    have hsign : ∀ rest, print n ≠ 45 :: rest := by
      intro rest h
      have := mem_print (n := n) (b := 45) (by rw [h]; exact List.mem_cons_self ..)
      exact absurd this (by decide)
    unfold parseInt printInt
    split
    · rename_i rest h
      exact absurd h (hsign rest)
    · rw [parse_print]
      rfl
  | negSucc n =>
    simp only [printInt, parseInt, parse_print]
    rfl

theorem length_printInt {n : Int} {k : Nat} (hk : 0 < k) (h : n.natAbs < 10 ^ k) : (printInt n).length ≤ k + 1 := by
  cases n with
  | ofNat n => exact Nat.le_succ_of_le (length_print hk h)
  | negSucc n => exact Nat.succ_le_succ (length_print hk h)

theorem mem_printInt {n : Int} {b : UInt8} (h : b ∈ printInt n) : b = 45 ∨ isDigit b = true := by
  cases n with
  | ofNat n => exact Or.inr (mem_print h)
  | negSucc n =>
    rcases List.mem_cons.mp h with rfl | h
    · exact Or.inl rfl
    · exact Or.inr (mem_print h)

end SystemMonitor.Lib.Decimal
