import SystemMonitor.Lib.Numeral

/-! Searching wide strings and reading their numerals, as `wchar.h` does.

`wcsstr` finds the first occurrence; where a character of the text that is looked for
stands nowhere before, that is the one at hand (`wcsstr_first`). `wcstoul` reads the
numerals that are printed with a `0x` or without (`wcstoul_hex`, `wcstoul_decimal`). -/
namespace SystemMonitor.Lib.WideStrings
open Numeral

abbrev Wide := List UInt16

def wide (s : String) : Wide := s.toList.map fun c => c.toNat.toUInt16

/-! ### Occurrences -/

/-- What is left from the first occurrence on. -/
def wcsstr (needle : Wide) : Wide → Option Wide
  | [] => if needle = [] then some [] else none
  | c :: rest => if needle.isPrefixOf (c :: rest) then some (c :: rest) else wcsstr needle rest

theorem wcsstr_here {needle : Wide} (back : Wide) (hneedle : needle ≠ []) :
    wcsstr needle (needle ++ back) = some (needle ++ back) := by
  obtain ⟨c, rest, rfl⟩ := List.exists_cons_of_ne_nil hneedle
  rw [List.cons_append, wcsstr, if_pos]
  exact List.isPrefixOf_iff_prefix.mpr (List.prefix_append (c :: rest) back)

/-- The first occurrence stands where a character of the text has not been met before. -/
theorem wcsstr_first (needle front : Wide) (place : Nat) {c : UInt16} (hplace : needle[place]? = some c)
    (hfront : c ∉ front ++ needle.take place) (back : Wide) :
    wcsstr needle (front ++ needle ++ back) = some (needle ++ back) := by
  have hneedle : needle ≠ [] := by
    rintro rfl
    cases hplace
  induction front with
  | nil => exact wcsstr_here back hneedle
  | cons b front ih =>
    have hlater := ih fun hc => hfront (List.mem_cons_of_mem _ hc)
    rw [List.append_assoc, List.cons_append, wcsstr, if_neg, ← List.append_assoc, hlater]
    rintro hprefix
    -- The occurrence would show the character too early.
    obtain ⟨more, hmore⟩ := List.isPrefixOf_iff_prefix.mp hprefix
    have hlt := (List.getElem?_eq_some_iff.mp hplace).1
    have hat : (b :: (front ++ (needle ++ back)))[place]? = some c := by
      rw [← hmore, List.getElem?_append_left hlt, hplace]
    have hsplit : b :: (front ++ (needle ++ back)) = (b :: front ++ needle.take place) ++ (needle.drop place ++ back) := by
      rw [List.cons_append, List.cons_append, List.append_assoc, ← List.append_assoc (needle.take place),
        List.take_append_drop]
    have hshort : place < (b :: front ++ needle.take place).length := by
      rw [List.length_append, List.length_cons, List.length_take]
      omega
    rw [hsplit, List.getElem?_append_left hshort] at hat
    exact hfront (List.mem_of_getElem? hat)

/-! ### Numerals -/

/-- The value of a digit in the largest base. -/
def digitValue (c : UInt16) : Option Nat :=
  if 48 ≤ c ∧ c ≤ 57 then some (c.toNat - 48)
  else if 65 ≤ c ∧ c ≤ 90 then some (c.toNat - 55)
  else if 97 ≤ c ∧ c ≤ 122 then some (c.toNat - 87)
  else none

def digitChar (d : Nat) : UInt16 := if d < 10 then (48 + d).toUInt16 else (55 + d).toUInt16

/-- The digits and capital letters, as far as they are digits of the base. -/
def alphabet (base : Nat) (hbase : 1 < base ∧ base ≤ 16) : Alphabet UInt16 base where
  digit := digitChar
  value c := (digitValue c).filter (· < base)
  base_gt := hbase.1
  value_digit := by
    intro d hd
    have hvalue : ∀ d < 16, digitValue (digitChar d) = some d := by decide
    rw [hvalue d (by omega)]
    exact Option.filter_some_pos (decide_eq_true hd)

def octal : Alphabet UInt16 8 := alphabet 8 (by decide)
def decimal : Alphabet UInt16 10 := alphabet 10 (by decide)
def hex : Alphabet UInt16 16 := alphabet 16 (by decide)

def ulongMax : Nat := 2 ^ 32 - 1

/-- Space as the C locale has it. -/
def iswspace (c : UInt16) : Bool := c == 32 || (9 ≤ c && c ≤ 13)

/-- The value of the digits at the start, and what follows them. -/
def numeral {base : Nat} (A : Alphabet UInt16 base) (t : Wide) : Option (Nat × Wide) :=
  let digits := t.takeWhile A.isDigit
  if digits = [] then none else some (A.read digits, t.drop digits.length)

/-- The base that a numeral's first characters give it. -/
def wcsNumeral : Wide → Option (Nat × Wide)
  | 48 :: x :: c :: rest =>
    if (x = 120 ∨ x = 88) ∧ hex.isDigit c then numeral hex (c :: rest) else numeral octal (48 :: x :: c :: rest)
  | 48 :: rest => numeral octal (48 :: rest)
  | t => numeral decimal t

/-- `wcstoul` with base zero: the value and the end of the text it has read. -/
def wcstoul (t : Wide) : Option (Nat × Wide) :=
  match t.dropWhile iswspace with
  | 45 :: rest => (wcsNumeral rest).map fun (n, left) => (if ulongMax < n then ulongMax else (2 ^ 32 - n) % 2 ^ 32, left)
  | 43 :: rest => (wcsNumeral rest).map fun (n, left) => (min n ulongMax, left)
  | rest => (wcsNumeral rest).map fun (n, left) => (min n ulongMax, left)

section
variable {base : Nat} {A : Alphabet UInt16 base} {t rest : Wide}

theorem numeral_digits (ht : ∀ c ∈ t, ∃ d < base, c = A.digit d) (hne : t ≠ [])
    (hrest : ∀ c ∈ rest.head?, A.isDigit c = false) : numeral A (t ++ rest) = some (A.read t, rest) := by
  unfold numeral
  rw [A.takeWhile_digits ht hrest]
  dsimp only
  rw [if_neg hne, List.drop_left]

/-- A numeral that starts with a digit has no space or sign before it. -/
theorem wcstoul_digit {d : Nat} (hd : d < 10) (t : Wide) :
    wcstoul (digitChar d :: t) = (wcsNumeral (digitChar d :: t)).map fun (n, left) => (min n ulongMax, left) := by
  have hstart : ∀ d < 10, iswspace (digitChar d) = false ∧ digitChar d ≠ 45 ∧ digitChar d ≠ 43 := by decide
  obtain ⟨hspace, hminus, hplus⟩ := hstart d hd
  unfold wcstoul
  rw [List.dropWhile_cons_of_neg (by rw [hspace]; exact Bool.false_ne_true)]
  split
  next heq =>
    rw [List.cons.injEq] at heq
    exact absurd heq.1 hminus
  next heq =>
    rw [List.cons.injEq] at heq
    exact absurd heq.1 hplus
  next => rfl

/-- A number in hexadecimal with `0x` before it. -/
theorem wcstoul_hex {width n : Nat} (hwidth : 0 < width) (hn : n ≤ ulongMax) (hrest : ∀ c ∈ rest.head?, hex.isDigit c = false) :
    wcstoul (wide "0x" ++ (hex.printPadded width n ++ rest)) = some (n, rest) := by
  have hdigits : ∀ c ∈ hex.printPadded width n, ∃ d < 16, c = hex.digit d := fun c hc => hex.mem_printPadded hc
  have hne : hex.printPadded width n ≠ [] := hex.printPadded_ne_nil hwidth
  have hnumeral := numeral_digits hdigits hne hrest
  rw [hex.read_printPadded] at hnumeral
  obtain ⟨c, more, hmore⟩ := List.exists_cons_of_ne_nil hne
  obtain ⟨d, hd, rfl⟩ := hdigits c (by rw [hmore]; exact List.mem_cons_self ..)
  have hhex : hex.isDigit (hex.digit d) = true := hex.isDigit_digit hd
  rw [hmore, List.cons_append] at hnumeral ⊢
  have hzero : wcsNumeral (wide "0x" ++ hex.digit d :: (more ++ rest)) = some (n, rest) := by
    show (if ((120 : UInt16) = 120 ∨ (120 : UInt16) = 88) ∧ hex.isDigit (hex.digit d) = true then _ else _) = _
    rw [if_pos ⟨.inl rfl, hhex⟩, hnumeral]
  have hstart := wcstoul_digit (d := 0) (by decide) (120 :: hex.digit d :: (more ++ rest))
  refine hstart.trans ?_
  rw [show digitChar 0 :: 120 :: hex.digit d :: (more ++ rest) = wide "0x" ++ hex.digit d :: (more ++ rest) from rfl, hzero]
  exact congrArg some (Prod.ext (Nat.min_eq_left hn) rfl)

/-- A number in decimal, which does not begin with a zero unless it is zero. -/
theorem wcstoul_decimal {n : Nat} (hn : n ≤ ulongMax) (hrest : ∀ c ∈ rest.head?, c = 95) :
    wcstoul (decimal.print n ++ rest) = some (n, rest) := by
  have hend : ∀ c ∈ rest.head?, decimal.isDigit c = false := fun c hc => by
    rw [hrest c hc]
    decide
  have hnumeral := numeral_digits (fun c hc => decimal.mem_print hc) (decimal.print_ne_nil n) hend
  rw [decimal.read_print] at hnumeral
  by_cases hzero : n = 0
  · subst hzero
    have hone : decimal.print 0 = [digitChar 0] := rfl
    rw [hone, List.singleton_append, wcstoul_digit (by decide)]
    have hoctal : wcsNumeral (digitChar 0 :: rest) = some (0, rest) := by
      have hread : numeral octal (digitChar 0 :: rest) = some (0, rest) := by
        refine numeral_digits (t := [digitChar 0]) (fun c hc => ⟨0, by decide, List.mem_singleton.mp hc⟩) (by decide) ?_
        intro c hc
        rw [hrest c hc]
        decide
      show wcsNumeral (48 :: rest) = _
      unfold wcsNumeral
      split
      next x c more heq =>
        cases heq
        have hx : x = 95 := hrest x rfl
        rw [if_neg (by rw [hx]; rintro ⟨h | h, -⟩ <;> exact absurd h (by decide))]
        exact hread
      next heq =>
        cases heq
        exact hread
      next hother => exact absurd rfl (hother rest)
    rw [hoctal]
    rfl
  · obtain ⟨d, hd, hne, hhead⟩ := decimal.head_print hzero
    obtain ⟨first, more, hmore⟩ := List.exists_cons_of_ne_nil (decimal.print_ne_nil n)
    rw [hmore, List.head?_cons, Option.some_inj] at hhead
    rw [hmore, hhead, List.cons_append] at hnumeral ⊢
    have hnotzero : ∀ d < 10, d ≠ 0 → digitChar d ≠ 48 := by decide
    have hplain : wcsNumeral (decimal.digit d :: (more ++ rest)) = some (n, rest) := by
      rw [← hnumeral]
      unfold wcsNumeral
      split
      next heq => exact absurd (List.cons.inj heq).1 (hnotzero d hd hne)
      next heq => exact absurd (List.cons.inj heq).1 (hnotzero d hd hne)
      next => rfl
    refine (wcstoul_digit hd (more ++ rest)).trans ?_
    rw [show digitChar d = decimal.digit d from rfl, hplain]
    exact congrArg some (Prod.ext (Nat.min_eq_left hn) rfl)

end

end SystemMonitor.Lib.WideStrings
