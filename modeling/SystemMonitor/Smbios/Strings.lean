import SystemMonitor.Smbios.Table
import Mathlib.Data.List.DropRight
import Mathlib.Data.Nat.Find

/-! What the loops over a structure's strings find.

Each loop is a function of the bytes between two offsets: `textEnd` is a
`takeWhile`, the trimming an `rdropWhile`, the cut a `Nat.findGreatest`, and the
lookup by number a `splitOn` at the NULs (`copySmbiosString_eq`). -/
namespace SystemMonitor.Smbios
open Lib Lib.Loop

/-! ### Bytes between two offsets -/

def window (table : List UInt8) (lo hi : Nat) : List UInt8 := (table.drop lo).take (hi - lo)

section
variable {table : List UInt8} {lo hi : Nat}

theorem window_empty (h : hi ≤ lo) : window table lo hi = [] := by
  rw [window, Nat.sub_eq_zero_of_le h, List.take_zero]

theorem window_cons (h : lo < hi) (hin : hi ≤ table.length) :
    ∃ b, table[lo]? = some b ∧ window table lo hi = b :: window table (lo + 1) hi := by
  have hlo : lo < table.length := Nat.lt_of_lt_of_le h hin
  refine ⟨table[lo], List.getElem?_eq_getElem hlo, ?_⟩
  have hsub : hi - lo = hi - (lo + 1) + 1 := by omega
  rw [window, List.drop_eq_getElem_cons hlo, hsub, List.take_succ_cons, window]

theorem length_window (hin : hi ≤ table.length) : (window table lo hi).length = hi - lo := by
  rw [window, List.length_take, List.length_drop]
  omega

theorem drop_window (k : Nat) : (window table lo hi).drop k = window table (lo + k) hi := by
  rw [window, window, List.drop_take, List.drop_drop]
  congr 1
  omega

theorem take_window {k : Nat} (h : lo + k ≤ hi) : (window table lo hi).take k = window table lo (lo + k) := by
  rw [window, window, List.take_take, Nat.add_sub_cancel_left, Nat.min_eq_left (by omega)]

theorem bytesAt_window {k : Nat} (hin : lo + k ≤ table.length) :
    bytesAt table lo k = some (window table lo (lo + k)) := by
  rw [bytesAt, if_pos hin, window, Nat.add_sub_cancel_left]

end

/-! ### One text -/

def blank (b : UInt8) : Bool := b == 32 || b == 9

section
variable (L : SmbiosLibrary) {table : List UInt8} {fuel start length : Nat}

theorem textEnd_eq {cursor stringsEnd : Nat} (hin : stringsEnd ≤ table.length) (hfuel : stringsEnd - cursor < fuel) :
    textEnd table fuel cursor stringsEnd =
      some (cursor + ((window table cursor stringsEnd).takeWhile (· != 0)).length) := by
  refine Computes.iterate_eq (⟨fun cursor _ => ?_⟩ : Computes _ (fun _ => True) (fun cursor => stringsEnd - cursor)
    fun cursor => cursor + ((window table cursor stringsEnd).takeWhile (· != 0)).length) trivial hfuel
  by_cases hcursor : cursor < stringsEnd
  · obtain ⟨b, hread, hwindow⟩ := window_cons hcursor hin
    simp only [if_pos hcursor, hread, Option.bind_eq_bind, Option.bind_some, hwindow]
    by_cases hb : b = 0
    · right
      rw [if_neg (not_not.mpr hb), List.takeWhile_cons_of_neg (by rw [hb]; decide)]
      rfl
    · left
      refine ⟨cursor + 1, if_pos hb, trivial, by omega, ?_⟩
      have hword : (b :: window table (cursor + 1) stringsEnd).takeWhile (· != 0) =
          b :: (window table (cursor + 1) stringsEnd).takeWhile (· != 0) :=
        List.takeWhile_cons_of_pos (bne_iff_ne.mpr hb)
      rw [hword, List.length_cons]
      omega
  · right
    rw [if_neg hcursor, window_empty (by omega)]
    rfl

theorem trimLength_eq (hin : start + length ≤ table.length) :
    trimLength table start length = some ((window table start (start + length)).rdropWhile blank).length := by
  induction length with
  | zero => rw [Nat.add_zero, window_empty (Nat.le_refl _), List.rdropWhile_nil]; rfl
  | succ length ih =>
    have hlast : start + length < table.length := by omega
    have hsplit : window table start (start + (length + 1)) =
        window table start (start + length) ++ [table[start + length]] := by
      rw [window, window, Nat.add_sub_cancel_left, Nat.add_sub_cancel_left, List.take_add_one,
        List.getElem?_drop, List.getElem?_eq_getElem hlast]
      rfl
    rw [hsplit, trimLength, List.getElem?_eq_getElem hlast]
    simp only [Option.bind_eq_bind, Option.bind_some]
    by_cases hblank : table[start + length] = 32 ∨ table[start + length] = 9
    · rw [if_pos hblank, ih (by omega), List.rdropWhile_concat_pos _ _ _ (by simpa [blank] using hblank)]
    · rw [if_neg hblank, List.rdropWhile_concat_neg _ _ _ (by simpa [blank] using hblank), List.length_append,
        length_window (by omega), List.length_singleton, Nat.add_sub_cancel_left]

theorem cutLength_eq (hi : Nat) (hin : hi ≤ table.length) (hlength : start + length ≤ hi) :
    cutLength L table start length =
      some (Nat.findGreatest (fun k => L.utf8Validate ((window table start hi).take k) = true) length) := by
  induction length with
  | zero => rfl
  | succ length ih =>
    rw [cutLength, bytesAt_window (by omega), Nat.findGreatest_succ, take_window hlength]
    simp only [Option.bind_eq_bind, Option.bind_some]
    split
    · rfl
    · exact ih (by omega)

/-! ### What a buffer shows -/

/-- How much of a text fits. -/
def keptLength (n : Nat) (text : Text) : Nat :=
  if n ≤ text.length then Nat.findGreatest (fun k => L.utf8Validate (text.take k) = true) (n - 1) else text.length

/-- A text in a buffer: trimmed, and cut to what fits. -/
def shown {n : Nat} (text : Text) : Chars n :=
  let text := text.rdropWhile blank
  if ¬L.utf8Validate text then notAvailable
  else
    let destination : Chars n := Chars.ofText (text.take (keptLength L n text))
    if destination.text = [] then notAvailable else destination

theorem shown_nil {n : Nat} : (shown L [] : Chars n) = notAvailable := by
  rw [shown, List.rdropWhile_nil]
  dsimp only
  rw [List.take_nil]
  split
  · rfl
  · exact if_pos (List.take_nil : (Chars.ofText [] : Chars n).text = [])

theorem keptLength_le (n : Nat) (text : Text) : keptLength L n text ≤ text.length := by
  unfold keptLength
  split
  · exact (Nat.findGreatest_le (n - 1)).trans (by omega)
  · exact Nat.le_refl _

theorem keptLength_whole {n : Nat} {text : Text} (h : text.length < n) : keptLength L n text = text.length :=
  if_neg (Nat.not_le.mpr h)

theorem keptLength_cut {n : Nat} {text : Text} (h : n ≤ text.length) :
    keptLength L n text ≤ n - 1 ∧
      (∀ k, keptLength L n text < k → k ≤ n - 1 → L.utf8Validate (text.take k) = false) ∧
      (keptLength L n text ≠ 0 → L.utf8Validate (text.take (keptLength L n text)) = true) := by
  rw [keptLength, if_pos h]
  refine ⟨Nat.findGreatest_le (n - 1), fun k hk hkn => ?_, fun hne => Nat.findGreatest_of_ne_zero rfl hne⟩
  exact Bool.eq_false_iff.mpr (Nat.findGreatest_is_greatest hk hkn)

theorem copyText_eq {n : Nat} (hin : start + length ≤ table.length) :
    (copyText L table start length : Option (Chars n)) = some (shown L (window table start (start + length))) := by
  have hfront := List.rdropWhile_prefix blank (window table start (start + length))
  generalize htrimmed : (window table start (start + length)).rdropWhile blank = trimmed at hfront
  have hlength : trimmed.length ≤ length := by
    have hle := hfront.length_le
    rw [length_window hin, Nat.add_sub_cancel_left] at hle
    exact hle
  have hwindow : window table start (start + trimmed.length) = trimmed := by
    rw [List.prefix_iff_eq_take.mp hfront, take_window (by omega), length_window (by omega)]
    congr 1
    omega
  rw [copyText, trimLength_eq hin, htrimmed, shown, htrimmed]
  simp only [Option.bind_eq_bind, Option.bind_some]
  rw [bytesAt_window (by omega), hwindow, Option.bind_some]
  split
  · rfl
  · have hkept : (if n ≤ trimmed.length then cutLength L table start (n - 1) else some trimmed.length) =
        some (keptLength L n trimmed) := by
      unfold keptLength
      split
      · rename_i hlong
        rw [cutLength_eq L (start + trimmed.length) (by omega) (by omega), hwindow]
      · rfl
    have hle := keptLength_le L n trimmed
    have hcut : (window table start (start + trimmed.length)).take (keptLength L n trimmed) =
        window table start (start + keptLength L n trimmed) := take_window (by omega)
    rw [hkept, Option.bind_some, bytesAt_window (by omega), Option.bind_some,
      ← hcut, hwindow]

/-! ### A string by its number -/

/-- The string a one-based index selects: those before it end at a NUL each. -/
def selected (strings : List UInt8) (stringIndex : UInt8) : Option Text :=
  if stringIndex = 0 then none else (strings.splitOn 0)[stringIndex.toNat - 1]?

/-- What a text field holds. -/
def textField {n : Nat} (strings : List UInt8) (stringIndex : UInt8) : Chars n :=
  (selected strings stringIndex).elim notAvailable (shown L)

theorem textField_nil {n : Nat} (stringIndex : UInt8) : (textField L [] stringIndex : Chars n) = notAvailable := by
  unfold textField selected
  split
  · rfl
  · rw [List.splitOn_nil]
    cases stringIndex.toNat - 1 with
    | zero => exact shown_nil L
    | succ i => rfl

/-- The strings from a cursor, one after the other. -/
theorem splitOn_window {cursor stringsEnd : Nat} (hin : stringsEnd ≤ table.length) {word : Text}
    (hword : (window table cursor stringsEnd).takeWhile (· != 0) = word) :
    window table cursor (cursor + word.length) = word ∧ 0 ∉ word ∧ cursor + word.length ≤ max cursor stringsEnd ∧
      (stringsEnd ≤ cursor + word.length → (window table cursor stringsEnd).splitOn 0 = [word]) ∧
      (cursor + word.length < stringsEnd → (window table cursor stringsEnd).splitOn 0 =
        word :: (window table (cursor + word.length + 1) stringsEnd).splitOn 0) := by
  have hfront : word <+: window table cursor stringsEnd := hword ▸ List.takeWhile_prefix _
  have hle := hfront.length_le
  rw [length_window hin] at hle
  have hnul : 0 ∉ word := by
    intro hmem
    rw [← hword] at hmem
    exact absurd (List.mem_takeWhile_imp hmem) (by decide)
  have hsame : word = window table cursor (cursor + word.length) := by
    by_cases hempty : stringsEnd ≤ cursor
    · rw [window_empty hempty] at hfront
      rw [List.prefix_nil.mp hfront]
      exact (window_empty (Nat.le_refl _)).symm
    · exact (List.prefix_iff_eq_take.mp hfront).trans (take_window (by omega))
  refine ⟨hsame.symm, hnul, by omega, ?_, ?_⟩
  · intro hend
    have hall : window table cursor stringsEnd = word :=
      (hfront.eq_of_length (by rw [length_window hin]; omega)).symm
    rw [hall]
    exact List.splitOn_eq_singleton hnul
  · intro hmore
    obtain ⟨b, -, hcons⟩ := window_cons hmore hin
    have hsplit : window table cursor stringsEnd = word ++ b :: window table (cursor + word.length + 1) stringsEnd := by
      rw [← hcons, ← drop_window]
      conv_lhs => rw [← List.take_append_drop word.length (window table cursor stringsEnd)]
      rw [← List.prefix_iff_eq_take.mp hfront]
    have hb : b = 0 := by
      by_contra hne
      have hwhole : ∀ c ∈ word, (c != 0) = true := by
        intro c hc
        exact bne_iff_ne.mpr fun h => hnul (h ▸ hc)
      have htake := hword
      have hlonger : (b :: window table (cursor + word.length + 1) stringsEnd).takeWhile (· != 0) =
          b :: (window table (cursor + word.length + 1) stringsEnd).takeWhile (· != 0) :=
        List.takeWhile_cons_of_pos (bne_iff_ne.mpr hne)
      rw [hsplit, List.takeWhile_append_of_pos hwhole, hlonger] at htake
      have hlength := congrArg List.length htake
      rw [List.length_append, List.length_cons] at hlength
      omega
    rw [hsplit, hb, List.splitOn_append_cons_self_of_not_mem hnul]

/-- **The lookup by number stays in the table and finds the string the index selects.** -/
theorem copySmbiosString_eq {n stringsStart stringsEnd : Nat} (hin : stringsEnd ≤ table.length)
    (hfuel : table.length < fuel) (stringIndex : UInt8) :
    (copySmbiosString L table fuel stringsStart stringsEnd stringIndex : Option (Chars n)) =
      some (textField L (window table stringsStart stringsEnd) stringIndex) := by
  unfold copySmbiosString
  by_cases hzero : stringIndex = 0
  · rw [if_pos (.inl hzero), hzero]
    rfl
  by_cases hempty : stringsEnd ≤ stringsStart
  · rw [if_pos (.inr (.inl hempty)), window_empty hempty, textField_nil]
  rw [if_neg (by simp only [hzero, hempty, false_or]; omega)]
  have hindex : 1 ≤ stringIndex.toNat := by
    rw [Nat.one_le_iff_ne_zero]
    exact fun h => hzero (UInt8.toNat_inj.mp h)
  have hfound : (textField L (window table stringsStart stringsEnd) stringIndex : Chars n) =
      (((window table stringsStart stringsEnd).splitOn 0)[stringIndex.toNat - 1]?).elim notAvailable (shown L) := by
    rw [textField, selected, if_neg hzero]
  rw [hfound]
  refine Computes.iterate_eq (⟨fun s hs => ?_⟩ : Computes _ (fun s : Nat × Nat => s.1 ≤ stringsEnd ∧ s.2 ≤ stringIndex.toNat)
    (fun s => stringsEnd - s.1) fun s =>
      (((window table s.1 stringsEnd).splitOn 0)[stringIndex.toNat - s.2]?).elim notAvailable (shown L))
    ⟨by omega, hindex⟩ (by show stringsEnd - stringsStart < fuel; omega)
  obtain ⟨cursor, current⟩ := s
  obtain ⟨hcursor, hcurrent⟩ := hs
  dsimp only at hcursor hcurrent ⊢
  by_cases hmore : cursor < stringsEnd
  · -- One string of the set.
    generalize hword : (window table cursor stringsEnd).takeWhile (· != 0) = word
    obtain ⟨hsame, -, hle, hlast, hnext⟩ := splitOn_window hin hword
    rw [if_pos hmore, textEnd_eq hin (by omega), hword]
    simp only [Option.bind_eq_bind, Option.bind_some]
    by_cases hthis : current = stringIndex.toNat
    · right
      have hhead : ((window table cursor stringsEnd).splitOn 0)[0]? = some word := by
        by_cases hend : stringsEnd ≤ cursor + word.length
        · rw [hlast hend]; rfl
        · rw [hnext (by omega)]; rfl
      rw [if_pos hthis, Nat.add_sub_cancel_left, copyText_eq L (by omega), hsame, hthis, Nat.sub_self, hhead]
      rfl
    · rw [if_neg hthis]
      obtain ⟨ahead, hahead⟩ : ∃ ahead, stringIndex.toNat - current = ahead + 1 :=
        ⟨stringIndex.toNat - current - 1, by omega⟩
      by_cases hend : stringsEnd ≤ cursor + word.length
      · right
        rw [if_pos hend, hlast hend, hahead]
        rfl
      · left
        have hnumber : stringIndex.toNat - (current + 1) = ahead := by omega
        refine ⟨(cursor + word.length + 1, current + 1), if_neg hend, ⟨by dsimp only; omega, by dsimp only; omega⟩,
          by dsimp only; omega, ?_⟩
        rw [hnext (by omega), hahead, hnumber, List.getElem?_cons_succ]
  · right
    have hnone : ([[]] : List Text)[stringIndex.toNat - current]?.elim notAvailable (shown L (n := n)) = notAvailable := by
      cases stringIndex.toNat - current with
      | zero => exact shown_nil L
      | succ i => rfl
    rw [if_neg hmore, window_empty (by omega), List.splitOn_nil, hnone]

end

end SystemMonitor.Smbios
