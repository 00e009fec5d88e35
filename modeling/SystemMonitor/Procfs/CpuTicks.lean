import SystemMonitor.Procfs.CpuAccounting

/-! Total CPU time, read twice.

The process scan reads the total out of `/proc/stat` with a reader of its own. It takes
numerals from behind the first three bytes on; what follows these bytes and where the line
ends it does not look at.

`total_cpu_ticks_agree_iff`: when the two readers agree on a text. -/
namespace SystemMonitor.Procfs
open Lib CStrings

section
variable (lib : Library) (arith : Arithmetic)

def lsmProcessLinuxParseTotalCpuTicks (text : Text) : Option Nat :=
  if !(ascii "cpu").isPrefixOf text then none
  else
    let fields := fieldsFrom lib 8 (text.drop 3)
    if fields.length < 4 then none else some (sumFields arith fields)

end

/-- The text up to its first newline. -/
def firstLine (text : Text) : Text := text.takeWhile (· != 10)

/-- Numerals, each behind one space or more: the number of further spaces, and the value. -/
def rowText (items : List (Nat × Nat)) : Text :=
  items.flatMap fun item => List.replicate (item.1 + 1) 32 ++ Decimal.print item.2

/-- `cpu` and four numerals or more. -/
def WellFormedRow (line : Text) : Prop :=
  ∃ items : List (Nat × Nat), 4 ≤ items.length ∧ (∀ item ∈ items, item.2 ≤ uint64Max) ∧
    line = ascii "cpu" ++ rowText items

/-- What is expected of the two readers on a text. -/
def TicksAgree (lib : Library) (arith : Arithmetic) (text : Text) : Prop :=
  (∀ total, lsmProcessLinuxParseTotalCpuTicks lib arith text = some total →
    ∃ sample, lsmCpuAccountingParse lib arith true (firstLine text) = some sample ∧
      (sample.cpus 0).total = total) ∧
  (WellFormedRow (firstLine text) →
    ∃ total sample, lsmProcessLinuxParseTotalCpuTicks lib arith text = some total ∧
      lsmCpuAccountingParse lib arith true (firstLine text) = some sample ∧ (sample.cpus 0).total = total)

/-- The numerals behind the first three bytes. -/
def rowFields (lib : Library) (text : Text) : List Nat := fieldsFrom lib 8 (text.drop 3)

/-- When `cpu` is followed by four numerals: white space of the same line comes first, four
of the numerals are on the line, and a numeral on a later line adds nothing. -/
def StaysOnLine (lib : Library) (text : Text) : Prop :=
  (ascii "cpu").isPrefixOf text = true → 4 ≤ (rowFields lib text).length →
    fourth lib.asciiIsSpace (firstLine text) = true ∧ 4 ≤ (rowFields lib (firstLine text)).length ∧
      ∀ value ∈ (rowFields lib text).drop (rowFields lib (firstLine text)).length,
        value = 0 ∨ uint64Max ≤ (rowFields lib (firstLine text)).sum

/-! ### Numerals up to a newline -/

theorem takeWhile_append_stop {p : UInt8 → Bool} {c : UInt8} (hc : p c = false) (t rest : Text) :
    (t ++ c :: rest).takeWhile p = t.takeWhile p ∧ (t ++ c :: rest).dropWhile p = t.dropWhile p ++ c :: rest := by
  induction t with
  | nil => exact ⟨List.takeWhile_cons_of_neg (by rw [hc]; decide), List.dropWhile_cons_of_neg (by rw [hc]; decide)⟩
  | cons b t ih =>
    cases hb : p b with
    | false =>
      have hneg : ¬ p b = true := by rw [hb]; decide
      rw [List.cons_append, List.takeWhile_cons_of_neg hneg, List.takeWhile_cons_of_neg hneg,
        List.dropWhile_cons_of_neg hneg, List.dropWhile_cons_of_neg hneg]
      exact ⟨rfl, rfl⟩
    | true =>
      rw [List.cons_append, List.takeWhile_cons_of_pos hb, List.takeWhile_cons_of_pos hb, List.dropWhile_cons_of_pos hb,
        List.dropWhile_cons_of_pos hb, ih.1, ih.2]
      exact ⟨rfl, rfl⟩

/-- A numeral is the same before a newline. -/
theorem parseU64Token_newline (lib : Library) {t cursor : Text} {value : Nat}
    (h : lib.parseU64Token t = some (value, cursor)) (rest : Text) :
    lib.parseU64Token (t ++ 10 :: rest) = some (value, cursor ++ 10 :: rest) := by
  rw [lib.parseU64Token_eq, numeralAt, Option.map_eq_some_iff] at h
  obtain ⟨n, hn, heq⟩ := h
  obtain ⟨rfl, rfl⟩ := Prod.mk.inj heq
  have hne : t.dropWhile lib.skips ≠ [] := by
    intro hnil
    rw [hnil] at hn
    cases hn
  have hstart : (t ++ 10 :: rest).dropWhile lib.skips = t.dropWhile lib.skips ++ 10 :: rest := by
    rw [List.dropWhile_append, if_neg (by simpa using hne)]
  obtain ⟨htake, hdrop⟩ := takeWhile_append_stop (show Decimal.isDigit 10 = false by decide) (t.dropWhile lib.skips) rest
  rw [lib.parseU64Token_eq, numeralAt, hstart, htake, hdrop, hn]
  rfl

theorem fieldsFrom_newline (lib : Library) (places : Nat) (t rest : Text) :
    ∃ later, fieldsFrom lib places (t ++ 10 :: rest) = fieldsFrom lib places t ++ later := by
  induction places generalizing t with
  | zero => exact ⟨[], rfl⟩
  | succ places ih =>
    cases htoken : lib.parseU64Token t with
    | none =>
      have hnil : fieldsFrom lib (places + 1) t = [] := by rw [fieldsFrom, htoken]
      exact ⟨fieldsFrom lib (places + 1) (t ++ 10 :: rest), by rw [hnil, List.nil_append]⟩
    | some token =>
      obtain ⟨value, cursor⟩ := token
      obtain ⟨later, hlater⟩ := ih cursor
      refine ⟨later, ?_⟩
      rw [fieldsFrom, parseU64Token_newline lib htoken, fieldsFrom, htoken]
      dsimp only
      rw [hlater, List.cons_append]

theorem sumFields_eq (arith : Arithmetic) (fields : List Nat) : sumFields arith fields = min fields.sum uint64Max := by
  have hfold : ∀ start, start ≤ uint64Max →
      fields.foldl arith.u64AddSaturating start = min (start + fields.sum) uint64Max := by
    induction fields with
    | nil =>
      intro start hstart
      rw [List.foldl_nil, List.sum_nil, Nat.add_zero, Nat.min_eq_left hstart]
    | cons value fields ih =>
      intro start _
      rw [List.foldl_cons, arith.addSaturating_eq, ih _ (Nat.min_le_right _ _), List.sum_cons]
      omega
  rw [sumFields, hfold 0 (Nat.zero_le _), Nat.zero_add]

/-- A text is its first line and what follows. -/
theorem firstLine_split (text : Text) : text = firstLine text ∨ ∃ rest, text = firstLine text ++ 10 :: rest := by
  have hsplit := List.takeWhile_append_dropWhile (p := fun b : UInt8 => b != 10) (l := text)
  cases hrest : text.dropWhile (· != 10) with
  | nil =>
    rw [hrest, List.append_nil] at hsplit
    exact Or.inl hsplit.symm
  | cons b rest =>
    have hne : text.dropWhile (· != 10) ≠ [] := by rw [hrest]; exact List.cons_ne_nil b rest
    have hhead := List.head_dropWhile_not (fun b : UInt8 => b != 10) hne
    have hb : b = 10 := by simpa only [hrest, List.head_cons, bne_eq_false_iff_eq] using hhead
    rw [hrest, hb] at hsplit
    exact Or.inr ⟨rest, hsplit.symm⟩

theorem newline_notMem_firstLine (text : Text) : 10 ∉ firstLine text :=
  fun h => absurd (List.mem_takeWhile_imp h) (by decide)

theorem startsWith_cpu {line : Text} (h : (ascii "cpu").isPrefixOf line = true) : ∃ rest, line = ascii "cpu" ++ rest := by
  obtain ⟨rest, hrest⟩ := List.isPrefixOf_iff_prefix.mp h
  exact ⟨rest, hrest.symm⟩

theorem firstLine_cpu {text : Text} (h : (ascii "cpu").isPrefixOf text = true) :
    (ascii "cpu").isPrefixOf (firstLine text) = true := by
  obtain ⟨rest, rfl⟩ := startsWith_cpu h
  rw [List.isPrefixOf_iff_prefix]
  have htake : firstLine (ascii "cpu" ++ rest) = ascii "cpu" ++ firstLine rest :=
    List.takeWhile_append_of_pos (by decide +kernel)
  exact ⟨firstLine rest, htake.symm⟩

/-- The numerals of the line come first. -/
theorem rowFields_firstLine (lib : Library) {text : Text} (h : (ascii "cpu").isPrefixOf text = true) :
    ∃ later, rowFields lib text = rowFields lib (firstLine text) ++ later := by
  rcases firstLine_split text with hwhole | hrest
  · exact ⟨[], by rw [← hwhole, List.append_nil]⟩
  · obtain ⟨rest, hrest⟩ := hrest
    obtain ⟨row, hrow⟩ := startsWith_cpu (firstLine_cpu h)
    obtain ⟨later, hlater⟩ := fieldsFrom_newline lib 8 row rest
    refine ⟨later, ?_⟩
    have hdrop : text.drop 3 = row ++ 10 :: rest := by
      rw [hrest, hrow]
      rfl
    have hdropLine : (firstLine text).drop 3 = row := by
      rw [hrow]
      rfl
    rw [rowFields, rowFields, hdrop, hdropLine, hlater]

/-! ### The two readers -/

theorem parseTotal_eq_some_iff (lib : Library) (arith : Arithmetic) (text : Text) (total : Nat) :
    lsmProcessLinuxParseTotalCpuTicks lib arith text = some total ↔
      (ascii "cpu").isPrefixOf text = true ∧ 4 ≤ (rowFields lib text).length ∧
        total = min (rowFields lib text).sum uint64Max := by
  unfold lsmProcessLinuxParseTotalCpuTicks
  cases hcpu : (ascii "cpu").isPrefixOf text with
  | false => simp
  | true =>
    rw [if_neg (by decide)]
    dsimp only
    rw [sumFields_eq]
    show (if (rowFields lib text).length < 4 then none else some (min (rowFields lib text).sum uint64Max)) = _ ↔ _
    split
    · rename_i hshort
      exact ⟨fun h => (by cases h), fun h => absurd h.2.1 (by omega)⟩
    · rename_i hlong
      rw [Option.some.injEq]
      exact ⟨fun h => ⟨rfl, by omega, h.symm⟩, fun h => h.2.2.symm⟩

/-- On an aggregate row the accounting reads the numerals of the line. -/
theorem aggregateRow_eq (lib : Library) (arith : Arithmetic) (line : Text) :
    (aggregateRow lib arith line).map (·.total) =
      if (ascii "cpu").isPrefixOf line = true ∧ fourth lib.asciiIsSpace line = true ∧ 4 ≤ (rowFields lib line).length then
        some (min (rowFields lib line).sum uint64Max)
      else none := by
  unfold aggregateRow
  cases hcpu : (ascii "cpu").isPrefixOf line with
  | false => simp
  | true =>
    cases hspace : fourth lib.asciiIsSpace line with
    | false => simp
    | true =>
      rw [if_pos (by decide)]
      obtain ⟨b, rest, hrow⟩ : ∃ b rest, line.drop 3 = b :: rest := by
        unfold fourth at hspace
        cases hrow : line.drop 3 with
        | nil =>
          rw [hrow] at hspace
          cases hspace
        | cons b rest => exact ⟨b, rest, rfl⟩
      have hb : lib.asciiIsSpace b = true := by
        rw [fourth, hrow] at hspace
        exact hspace
      have hdigits : (line.drop 3).dropWhile Decimal.isDigit = line.drop 3 := by
        rw [hrow]
        refine List.dropWhile_cons_of_neg fun hdigit => ?_
        rw [lib.not_space_of_isDigit hdigit] at hb
        cases hb
      have hhead : lib.asciiIsSpace ((line.drop 3).headD 0) = true := by
        rw [hrow]
        exact hb
      unfold parseCpuRow
      rw [hcpu, if_neg (by decide)]
      dsimp only
      rw [hdigits, if_neg fun h => by rw [hhead] at h; exact Bool.noConfusion h.2, sumFields_eq]
      change Option.map LsmCpuCounters.total (if (rowFields lib line).length < 4 then none else _) = _
      by_cases hlong : 4 ≤ (rowFields lib line).length
      · rw [if_neg (by omega), if_pos ⟨rfl, rfl, hlong⟩]
        rfl
      · rw [if_pos (by omega), if_neg fun h => hlong h.2.2]
        rfl

/-- The accounting on one line. -/
theorem parse_line (lib : Library) (arith : Arithmetic) {line : Text} (hline : 10 ∉ line) (total : Nat) :
    (∃ sample, lsmCpuAccountingParse lib arith true line = some sample ∧ (sample.cpus 0).total = total) ↔
      (aggregateRow lib arith line).map (·.total) = some total := by
  have hone : cpuAccountingParseMutable lib arith line = takeCpuLine lib arith {} line ∨ line = [] := by
    by_cases hnil : line = []
    · exact Or.inr hnil
    · have hplain : ∀ b ∈ line, (b == 10) = false := fun b hb => beq_eq_false_iff_ne.mpr fun h => hline (h ▸ hb)
      left
      rw [cpuAccountingParseMutable, tokens_word hplain hnil]
      rfl
  rcases hone with hone | hnil
  · obtain ⟨hcpus, hfound⟩ := takeCpuLine_aggregate lib arith {} line
    unfold lsmCpuAccountingParse
    rw [hone]
    dsimp only
    rw [Bool.true_and, hfound, Bool.or_false]
    cases hrow : aggregateRow lib arith line with
    | none => simp
    | some counter =>
      rw [hrow] at hcpus
      rw [Option.isSome_some, if_pos rfl, Option.map_some, Option.some.injEq]
      constructor
      · intro h
        obtain ⟨sample, hsample, htotal⟩ := h
        rw [← Option.some.inj hsample, hcpus] at htotal
        exact htotal
      · exact fun h => ⟨_, rfl, by rw [hcpus]; exact h⟩
  · rw [hnil]
    constructor
    · intro h
      obtain ⟨sample, hsample, -⟩ := h
      cases hsample
    · intro h
      cases h

/-! ### When they agree -/

/-- The numerals of a well-formed row. -/
theorem fieldsFrom_rowText (lib : Library) (places : Nat) {items : List (Nat × Nat)}
    (hitems : ∀ item ∈ items, item.2 ≤ uint64Max) :
    fieldsFrom lib places (rowText items) = (items.map (·.2)).take places := by
  induction items generalizing places with
  | nil =>
    cases places with
    | zero => rfl
    | succ places =>
      have hnone : lib.parseU64Token [] = none := by rw [lib.parseU64Token_eq]; rfl
      show fieldsFrom lib (places + 1) [] = []
      rw [fieldsFrom, hnone]
  | cons item rest ih =>
    cases places with
    | zero => rfl
    | succ places =>
      obtain ⟨gap, value⟩ := item
      have hspaces : ∀ b ∈ List.replicate (gap + 1) (32 : UInt8), lib.skips b = true := by
        intro b hb
        rw [List.eq_of_mem_replicate hb]
        exact lib.skips_space
      have hdigit : ∀ b ∈ Decimal.print value, Decimal.isDigit b = true := fun b hb => Decimal.mem_print hb
      have hstart : (rowText ((gap, value) :: rest)).dropWhile lib.skips = Decimal.print value ++ rowText rest := by
        rw [rowText, List.flatMap_cons, List.append_assoc, List.dropWhile_append_of_pos hspaces]
        exact dropWhile_print (fun b => lib.not_skips_of_isDigit) value (rowText rest)
      have hend : (Decimal.print value ++ rowText rest).takeWhile Decimal.isDigit = Decimal.print value ∧
          (Decimal.print value ++ rowText rest).dropWhile Decimal.isDigit = rowText rest := by
        rw [List.takeWhile_append_of_pos hdigit, List.dropWhile_append_of_pos hdigit]
        cases rest with
        | nil => exact ⟨List.append_nil _, rfl⟩
        | cons next rest =>
          have htext : rowText (next :: rest) = 32 :: (List.replicate next.1 32 ++ Decimal.print next.2 ++ rowText rest) := by
            rw [rowText, List.flatMap_cons, List.replicate_succ]
            rfl
          rw [htext, List.takeWhile_cons_of_neg (by decide), List.dropWhile_cons_of_neg (by decide), List.append_nil]
          exact ⟨rfl, rfl⟩
      have htoken : lib.parseU64Token (rowText ((gap, value) :: rest)) = some (value, rowText rest) := by
        rw [lib.parseU64Token_eq, numeralAt, hstart, hend.1, hend.2,
          parse_print_u64 value (hitems (gap, value) (List.mem_cons_self ..))]
        rfl
      rw [fieldsFrom, htoken]
      dsimp only
      rw [ih places fun item hitem => hitems item (List.mem_cons_of_mem _ hitem)]
      rfl

theorem wellFormedRow_reads (lib : Library) {line : Text} (h : WellFormedRow line) :
    (ascii "cpu").isPrefixOf line = true ∧ fourth lib.asciiIsSpace line = true ∧ 4 ≤ (rowFields lib line).length := by
  obtain ⟨items, hlong, hitems, rfl⟩ := h
  refine ⟨List.isPrefixOf_iff_prefix.mpr ⟨_, rfl⟩, ?_, ?_⟩
  · cases items with
    | nil => exact absurd hlong (by decide)
    | cons item rest =>
      have htext : (ascii "cpu" ++ rowText (item :: rest)).drop 3 =
          32 :: (List.replicate item.1 32 ++ Decimal.print item.2 ++ rowText rest) := by
        rw [rowText, List.flatMap_cons, List.replicate_succ]
        rfl
      rw [fourth, htext]
      exact (lib.asciiIsSpace_iff 32).mpr (Or.inl rfl)
  · have hdrop : (ascii "cpu" ++ rowText items).drop 3 = rowText items := rfl
    rw [rowFields, hdrop, fieldsFrom_rowText lib 8 hitems, List.length_take, List.length_map]
    omega

/-- A ceiling hides what is added exactly when nothing is added or it was reached before. -/
theorem min_sum_append (fields later : List Nat) (ceiling : Nat) :
    min (fields ++ later).sum ceiling = min fields.sum ceiling ↔
      ∀ value ∈ later, value = 0 ∨ ceiling ≤ fields.sum := by
  rw [List.sum_append]
  constructor
  · intro h value hvalue
    by_cases hreached : ceiling ≤ fields.sum
    · exact Or.inr hreached
    · left
      have hle := List.le_sum_of_mem hvalue
      omega
  · intro h
    by_cases hreached : ceiling ≤ fields.sum
    · omega
    · have hzero : later.sum = 0 :=
        List.sum_eq_zero fun value hvalue => (h value hvalue).resolve_right hreached
      rw [hzero, Nat.add_zero]

/-- **When the two readers agree**: the numerals that are read stand on the first line. -/
theorem total_cpu_ticks_agree_iff (lib : Library) (arith : Arithmetic) (text : Text) :
    TicksAgree lib arith text ↔ StaysOnLine lib text := by
  have hline := newline_notMem_firstLine text
  have hboth : ∀ total, lsmProcessLinuxParseTotalCpuTicks lib arith text = some total →
      ((∃ sample, lsmCpuAccountingParse lib arith true (firstLine text) = some sample ∧ (sample.cpus 0).total = total) ↔
        fourth lib.asciiIsSpace (firstLine text) = true ∧ 4 ≤ (rowFields lib (firstLine text)).length ∧
          ∀ value ∈ (rowFields lib text).drop (rowFields lib (firstLine text)).length,
            value = 0 ∨ uint64Max ≤ (rowFields lib (firstLine text)).sum) := by
    intro total htotal
    obtain ⟨hcpu, -, rfl⟩ := (parseTotal_eq_some_iff lib arith text total).mp htotal
    obtain ⟨later, hlater⟩ := rowFields_firstLine lib hcpu
    rw [parse_line lib arith hline, aggregateRow_eq, hlater, List.drop_left, ← min_sum_append]
    by_cases hrow : fourth lib.asciiIsSpace (firstLine text) = true ∧ 4 ≤ (rowFields lib (firstLine text)).length
    · rw [if_pos ⟨firstLine_cpu hcpu, hrow.1, hrow.2⟩, Option.some.injEq]
      exact ⟨fun h => ⟨hrow.1, hrow.2, h.symm⟩, fun h => h.2.2.symm⟩
    · rw [if_neg fun h => hrow h.2]
      exact ⟨fun h => (by cases h), fun h => absurd ⟨h.1, h.2.1⟩ hrow⟩
  constructor
  · intro h hcpu hlong
    have htotal := (parseTotal_eq_some_iff lib arith text _).mpr ⟨hcpu, hlong, rfl⟩
    exact (hboth _ htotal).mp (h.1 _ htotal)
  · intro h
    have hfirst : ∀ total, lsmProcessLinuxParseTotalCpuTicks lib arith text = some total →
        ∃ sample, lsmCpuAccountingParse lib arith true (firstLine text) = some sample ∧ (sample.cpus 0).total = total := by
      intro total htotal
      obtain ⟨hcpu, hlong, -⟩ := (parseTotal_eq_some_iff lib arith text total).mp htotal
      exact (hboth total htotal).mpr (h hcpu hlong)
    refine ⟨hfirst, fun hwell => ?_⟩
    obtain ⟨hcpuLine, -, hlongLine⟩ := wellFormedRow_reads lib hwell
    have hcpu : (ascii "cpu").isPrefixOf text = true := by
      rcases firstLine_split text with hwhole | hrest
      · rw [hwhole]
        exact hcpuLine
      · obtain ⟨rest, hrest⟩ := hrest
        rw [hrest]
        exact List.isPrefixOf_iff_prefix.mpr ((List.isPrefixOf_iff_prefix.mp hcpuLine).trans (List.prefix_append _ _))
    obtain ⟨later, hlater⟩ := rowFields_firstLine lib hcpu
    have hlong : 4 ≤ (rowFields lib text).length := by
      rw [hlater, List.length_append]
      omega
    have htotal := (parseTotal_eq_some_iff lib arith text _).mpr ⟨hcpu, hlong, rfl⟩
    obtain ⟨sample, hsample, heq⟩ := hfirst _ htotal
    exact ⟨_, sample, htotal, hsample, heq⟩

/-- A core's row in first place is a total for one reader and nothing for the other. -/
theorem total_cpu_ticks_core_row : ¬ TicksAgree Library.documented Arithmetic.documented (ascii "cpu0 1 2 3 4\n") := by
  intro h
  obtain ⟨sample, hsample, -⟩ := h.1 10 (by decide)
  have hnone : lsmCpuAccountingParse Library.documented Arithmetic.documented true
      (firstLine (ascii "cpu0 1 2 3 4\n")) = none := by
    rw [lsmCpuAccountingParse, if_neg (by decide)]
  rw [hnone] at hsample
  cases hsample

end SystemMonitor.Procfs
