import SystemMonitor.Process.MapText

/-! The items of the inspector against the mappings that the kernel printed.

`memory_maps_exact_iff`: every mapping has one item of its own exactly where every mapping is
`Clean`. No later buffer of its line then scans as the head of a mapping, and what is shown
of its path fits the first buffer, does not begin with white space, and has no carriage
return in it. -/
namespace SystemMonitor.Process.MemoryMaps
open Lib Lib.Scanf

namespace Mapping
variable (m : Mapping)

/-- The path without its leading blanks. -/
def shown : Text := (escapePath m.path).dropWhile isBlank

/-- The item the mapping is owed. -/
def item (detailed : Bool) : LsmMemoryMapInfo where
  startAddress := m.start.toNat
  endAddress := m.stop.toNat
  fileOffset := m.offset.toNat
  inode := m.inode.toNat
  privateCleanBytes := if detailed then (m.kib .privateClean).val * 1024 else 0
  privateDirtyBytes := if detailed then (m.kib .privateDirty).val * 1024 else 0
  sharedCleanBytes := if detailed then (m.kib .sharedClean).val * 1024 else 0
  sharedDirtyBytes := if detailed then (m.kib .sharedDirty).val * 1024 else 0
  accountingAvailable := detailed
  permissions := Chars.ofText m.permissions
  device := Chars.ofText m.device
  path := Chars.ofText m.shown

/-- What `fgets` stores of the line after the first buffer. -/
def laterBuffers : List Text := Lines.buffersOf lineRoom ((m.line ++ [10]).drop lineRoom)

/-- The bytes of the line before the shown path. -/
def lead : Nat := (m.head []).length + (m.padding + ((escapePath m.path).takeWhile isBlank).length)

/-- A mapping that is read as it is. -/
structure Clean : Prop where
  whole : ∀ piece ∈ m.laterBuffers, scanHeader piece = none
  noSpace : ∀ b ∈ m.shown.head?, isSpace b = false
  noReturn : 13 ∉ m.shown.take (lsmInspectionMapPathLen - 1)
  fits : m.shown = [] ∨ m.lead + min (lsmInspectionMapPathLen - 1) m.shown.length ≤ lineRoom

end Mapping

/-! ### The bytes of a line -/

theorem mem_escapePath {path : Text} {b : UInt8} (h : b ∈ escapePath path) : b ≠ 10 ∧ (b ∈ path ∨ 32 ≤ b) := by
  obtain ⟨c, hc, hb⟩ := List.mem_flatMap.mp h
  split at hb
  · have hall : ∀ b ∈ ascii "\\012", b ≠ 10 ∧ 32 ≤ b := bytes_of_all (by decide)
    exact ⟨(hall b hb).1, .inr (hall b hb).2⟩
  next hne =>
    rw [List.mem_singleton] at hb
    rw [hb]
    exact ⟨hne, .inl hc⟩

theorem mem_decimal {n : Nat} {b : UInt8} (h : b ∈ decimal.print n) : 32 ≤ b := by
  obtain ⟨d, hd, rfl⟩ := decimal.mem_print h
  have hall : ∀ d < 10, 32 ≤ decimal.digit d := by decide
  exact hall d hd

theorem mem_hexadecimal {width n : Nat} {b : UInt8} (h : b ∈ hexadecimal.printPadded width n) : 32 ≤ b := by
  obtain ⟨d, hd, rfl⟩ := hexadecimal.mem_printPadded h
  have hall : ∀ d < 16, 32 ≤ hexadecimal.digit d := by decide
  exact hall d hd

theorem mem_amountLine {amount : Amount} {kib : Nat} {b : UInt8} (h : b ∈ amountLine amount kib) : 32 ≤ b := by
  rw [amountLine] at h
  rcases List.mem_append.mp h with hlabel | h
  · have hall : ∀ b ∈ amount.label, 32 ≤ b := by cases amount <;> exact bytes_of_all (by decide)
    exact hall b hlabel
  · rcases List.mem_cons.mp h with rfl | h
    · decide
    · rcases List.mem_append.mp h with h | hunit
      · rcases List.mem_append.mp h with hspace | hdigit
        · rw [List.eq_of_mem_replicate hspace]
          decide
        · exact mem_decimal hdigit
      · have hall : ∀ b ∈ ascii " kB", 32 ≤ b := bytes_of_all (by decide)
        exact hall b hunit

theorem length_amountLine (amount : Amount) (kib : Fin (2 ^ 54)) : (amountLine amount kib).length < lineRoom := by
  have hdigits : (decimal.print kib.val).length ≤ 17 := by
    rw [print_decimal]
    exact Decimal.length_print (by decide) (Nat.lt_of_lt_of_le kib.isLt (by decide))
  have hlabel : amount.label.length ≤ 13 := by cases amount <;> decide
  have hunit : (ascii " kB").length = 3 := rfl
  rw [amountLine, List.length_append, List.length_cons, List.length_append, List.length_append, List.length_replicate,
    hunit, lineRoom]
  omega

theorem mem_noteLine {n : Note} {b : UInt8} (h : b ∈ n.line) : b ≠ 10 ∧ b ≠ 0 := by
  rcases List.mem_append.mp h with hlabel | h
  · obtain ⟨-, -, -, -, -, hten, hnul⟩ := plain_of_isLabelByte (n.letters b hlabel)
    exact ⟨hten, hnul⟩
  · rcases List.mem_cons.mp h with rfl | h
    · decide
    · exact ⟨fun hten => n.noNewline (hten ▸ h), fun hnul => n.noNul (hnul ▸ h)⟩

theorem length_noteLine (n : Note) : n.line.length < lineRoom := by
  have hfits := n.fits
  rw [Note.line, List.length_append, List.length_cons]
  omega

namespace Mapping
variable (m : Mapping)

theorem mem_head {b : UInt8} (h : b ∈ m.head []) : 32 ≤ b := by
  simp only [head, List.mem_append, List.mem_cons, List.not_mem_nil, or_false] at h
  rcases h with h | rfl | h | rfl | h | rfl | h | rfl | h | rfl | h | rfl
  · exact mem_hexadecimal h
  · decide
  · exact mem_hexadecimal h
  · decide
  · have hall : ∀ b ∈ m.permissions, 32 ≤ b := by
      unfold permissions
      cases m.readable <;> cases m.writable <;> cases m.executable <;> cases m.shared <;> exact bytes_of_all (by decide)
    exact hall b h
  · decide
  · exact mem_hexadecimal h
  · decide
  · rcases m.mem_device h with rfl | ⟨d, hd, rfl⟩
    · decide
    · have hall : ∀ d < 16, 32 ≤ hexDigit d := by decide
      exact hall d hd
  · decide
  · exact mem_decimal h
  · decide

theorem mem_line {b : UInt8} (h : b ∈ m.line) : b ≠ 10 ∧ b ≠ 0 := by
  have hplain : ∀ {b : UInt8}, 32 ≤ b → b ≠ 10 ∧ b ≠ 0 := by
    rintro b hb
    constructor <;> rintro rfl <;> exact absurd hb (by decide)
  rw [line, head_eq] at h
  rcases List.mem_append.mp h with hhead | hname
  · exact hplain (m.mem_head hhead)
  · rcases List.mem_append.mp hname with hspace | hpath
    · rw [List.eq_of_mem_replicate hspace]
      decide
    · obtain ⟨hten, hpath | hlow⟩ := mem_escapePath hpath
      · exact ⟨hten, fun hnul => m.noNul (hnul ▸ hpath)⟩
      · exact hplain hlow

theorem accounting_cases {t : Text} (h : t ∈ m.accounting) :
    (∃ n : Note, t = n.line) ∨ ∃ amount, t = amountLine amount (m.kib amount) := by
  rcases List.mem_append.mp h with h | h
  · rcases List.mem_append.mp h with h | h
    · obtain ⟨n, -, rfl⟩ := List.mem_map.mp h
      exact .inl ⟨n, rfl⟩
    · simp only [List.mem_cons, List.not_mem_nil, or_false] at h
      rcases h with rfl | rfl | rfl | rfl <;> exact .inr ⟨_, rfl⟩
  · obtain ⟨n, -, rfl⟩ := List.mem_map.mp h
    exact .inl ⟨n, rfl⟩

/-- The lines of the accounting are short, and have neither newlines nor terminators. -/
theorem mem_accounting {t : Text} (h : t ∈ m.accounting) : t.length < lineRoom ∧ 10 ∉ t ∧ 0 ∉ t := by
  rcases m.accounting_cases h with ⟨n, rfl⟩ | ⟨amount, rfl⟩
  · exact ⟨length_noteLine n, fun h => (mem_noteLine h).1 rfl, fun h => (mem_noteLine h).2 rfl⟩
  · exact ⟨length_amountLine amount _, fun h => absurd (mem_amountLine h) (by decide),
      fun h => absurd (mem_amountLine h) (by decide)⟩

theorem scanHeader_accounting {t : Text} (h : t ∈ m.accounting) : scanHeader (t ++ [10]) = none := by
  rcases m.accounting_cases h with ⟨n, rfl⟩ | ⟨amount, rfl⟩
  · rw [Note.line, List.append_assoc]
    exact scanHeader_label n.letters _
  · rw [amountLine, List.append_assoc]
    exact scanHeader_label (label_letters amount) _

end Mapping

/-! ### The path that is read -/

theorem head_skipSpace {t rest : Text} {b : UInt8} (h : skipSpace t = b :: rest) : isSpace b = false := by
  have hne : t.dropWhile isSpace ≠ [] := fun hnil => List.cons_ne_nil b rest (h.symm.trans hnil)
  have hhead := List.head_dropWhile_not isSpace hne
  rw [skipSpace] at h
  simpa only [h, List.head_cons] using hhead

theorem dropWhile_skipSpace (t : Text) : (skipSpace t).dropWhile isBlank = skipSpace t := by
  cases hskip : skipSpace t with
  | nil => rfl
  | cons b rest =>
    have hb := head_skipSpace hskip
    refine List.dropWhile_cons_of_neg fun hblank => ?_
    rw [isSpace] at hb
    rw [isBlank] at hblank
    grind

theorem take_takeWhile (p : UInt8 → Bool) (n : Nat) (t : Text) : (t.takeWhile p).take n = (t.take n).takeWhile p := by
  induction t generalizing n with
  | nil => rw [List.takeWhile_nil, List.take_nil, List.takeWhile_nil]
  | cons b t ih =>
    cases n with
    | zero => rfl
    | succ n =>
      rw [List.take_succ_cons, List.takeWhile_cons, List.takeWhile_cons]
      split
      · rw [List.take_succ_cons, ih]
      · rfl

def isPathByte (b : UInt8) : Bool := b != 13 && b != 10

theorem pathname_skipSpace (t : Text) :
    pathname (skipSpace t) = ((skipSpace t).take (lsmInspectionMapPathLen - 1)).takeWhile isPathByte := by
  rw [pathname, dropWhile_skipSpace, take_takeWhile]
  rfl

/-- The path is read as it is shown exactly where it does not begin with white space, has no return
in what is kept of it, and what is kept of it is in the buffer. -/
theorem pathname_shown {shown : Text} (hten : 10 ∉ shown) (k : Nat) :
    pathname (skipSpace ((shown ++ [10]).take k)) = shown.take (lsmInspectionMapPathLen - 1) ↔
      (∀ b ∈ shown.head?, isSpace b = false) ∧ 13 ∉ shown.take (lsmInspectionMapPathLen - 1) ∧
        (shown = [] ∨ min (lsmInspectionMapPathLen - 1) shown.length ≤ k) := by
  rw [pathname_skipSpace]
  generalize hn : lsmInspectionMapPathLen - 1 = n
  have hpos : 0 < n := hn ▸ by decide
  constructor
  · intro h
    refine ⟨fun b hb => ?_, fun hmem => ?_, or_iff_not_imp_left.mpr fun hne => ?_⟩
    · obtain ⟨rest, rfl⟩ : ∃ rest, shown = b :: rest := ⟨shown.tail, List.eq_cons_of_mem_head? hb⟩
      obtain ⟨n, rfl⟩ := Nat.exists_eq_succ_of_ne_zero hpos.ne'
      rw [List.take_succ_cons] at h
      cases hskip : skipSpace ((b :: rest ++ [10]).take k) with
      | nil =>
        rw [hskip] at h
        cases h
      | cons c more =>
        have hc := head_skipSpace hskip
        rw [hskip, List.take_succ_cons, List.takeWhile_cons] at h
        split at h
        · rwa [← (List.cons.inj h).1]
        · cases h
    · rw [← h] at hmem
      exact absurd (List.mem_takeWhile_imp hmem) (by decide)
    · have hlength := congrArg List.length h
      have hread : (((skipSpace ((shown ++ [10]).take k)).take n).takeWhile isPathByte).length ≤ k := by
        refine (List.takeWhile_prefix _).length_le.trans ((List.length_take_le' ..).trans ?_)
        exact (List.dropWhile_suffix _).length_le.trans (List.length_take_le ..)
      rw [hlength, List.length_take] at hread
      exact hread
  · rintro ⟨hspace, hreturn, hfits⟩
    have hplain : ∀ b ∈ shown.take n, isPathByte b = true := by
      intro b hb
      rw [isPathByte, Bool.and_eq_true, bne_iff_ne, bne_iff_ne]
      exact ⟨fun heq => hreturn (heq ▸ hb), fun heq => hten (heq ▸ List.mem_of_mem_take hb)⟩
    cases shown with
    | nil =>
      have hnone : skipSpace (([] ++ [10] : Text).take k) = [] := by
        cases k with
        | zero => rfl
        | succ k =>
          rw [List.nil_append, List.take_succ_cons, List.take_nil]
          rfl
      rw [hnone, List.take_nil]
      rfl
    | cons b rest =>
      have hk := hfits.resolve_left (List.cons_ne_nil b rest)
      rw [List.length_cons] at hk
      obtain ⟨j, rfl⟩ : ∃ j, k = j + 1 := ⟨k - 1, by omega⟩
      have hskip : skipSpace ((b :: rest ++ [10]).take (j + 1)) = (b :: rest ++ [10]).take (j + 1) := by
        rw [List.cons_append, List.take_succ_cons, skipSpace_of_not (hspace b rfl)]
      rw [hskip, List.take_take]
      by_cases hlong : n ≤ (b :: rest).length
      · have hmin : min n (j + 1) = n := by
          rw [List.length_cons] at hlong
          omega
        rw [hmin, List.take_append_of_le_length hlong]
        exact List.takeWhile_eq_self_iff.mpr hplain
      · have hshort : (b :: rest).length ≤ min n (j + 1) := by
          rw [List.length_cons] at hlong ⊢
          omega
        rw [List.take_of_length_le (Nat.le_of_not_le hlong)] at hplain ⊢
        rw [List.take_append, List.take_of_length_le hshort, List.takeWhile_append_of_pos hplain]
        have hend : ∀ i, (([10] : Text).take i).takeWhile isPathByte = [] := by
          intro i
          cases i with
          | zero => rfl
          | succ i =>
            rw [List.take_succ_cons, List.take_nil]
            rfl
        rw [hend, List.append_nil]

/-! ### The buffers of a mapping -/

namespace Mapping
variable (m : Mapping) (detailed : Bool)

/-- What `fgets` stores of the line at first. -/
def firstBuffer : Text := (m.line ++ [10]).take lineRoom

/-- The buffers behind the first. -/
def following : List Text := m.laterBuffers ++ if detailed then m.accounting.map (· ++ [10]) else []

/-- The text behind the head in the first buffer. -/
def firstTail : Text := (m.nameField ++ [10]).take (lineRoom - (m.head []).length)

theorem firstBuffer_eq : m.firstBuffer = m.head m.firstTail := by
  have hroom : (m.head []).length ≤ lineRoom := m.length_head.trans (by decide)
  rw [firstBuffer, line, head_append, head_eq, List.take_append, List.take_of_length_le hroom, head_eq m m.firstTail]
  rfl

/-- The header of the mapping, as it is scanned. -/
def header : Header := ⟨m.start.toNat, m.stop.toNat, m.permissions, m.offset.toNat, m.device, m.inode.toNat⟩

theorem scanHeader_firstBuffer : scanHeader m.firstBuffer = some (m.header, skipSpace m.firstTail) := by
  rw [firstBuffer_eq]
  exact m.scanHeader_head m.firstTail

theorem skipSpace_blanks {blanks : Text} (h : ∀ b ∈ blanks, isSpace b = true) (t : Text) :
    skipSpace (blanks ++ t) = skipSpace t := List.dropWhile_append_of_pos h

theorem skipSpace_firstTail : skipSpace m.firstTail = skipSpace ((m.shown ++ [10]).take (lineRoom - m.lead)) := by
  have hblank : ∀ b ∈ List.replicate m.padding 32 ++ (escapePath m.path).takeWhile isBlank, isSpace b = true := by
    intro b hb
    rcases List.mem_append.mp hb with hpadding | hpath
    · rw [List.eq_of_mem_replicate hpadding]
      rfl
    · have hb := List.mem_takeWhile_imp hpath
      rw [isBlank] at hb
      rw [isSpace]
      grind
  have hname : m.nameField ++ [10] =
      (List.replicate m.padding 32 ++ (escapePath m.path).takeWhile isBlank) ++ (m.shown ++ [10]) := by
    rw [nameField, shown, List.append_assoc, List.append_assoc,
      ← List.append_assoc ((escapePath m.path).takeWhile isBlank), List.takeWhile_append_dropWhile]
  have hlead : lineRoom - (m.head []).length -
      (List.replicate m.padding 32 ++ (escapePath m.path).takeWhile isBlank : Text).length = lineRoom - m.lead := by
    rw [List.length_append, List.length_replicate, lead, Nat.sub_sub]
  rw [firstTail, hname, List.take_append, hlead]
  exact skipSpace_blanks (fun b hb => hblank b (List.mem_of_mem_take hb)) _

theorem cString_buffer {piece : Text} (h : piece ∈ Lines.buffersOf lineRoom (m.line ++ [10])) :
    Lines.cString piece = piece := by
  refine Lines.cString_of_noNul fun hnul => ?_
  rcases List.mem_append.mp (Lines.mem_buffers h hnul) with hline | hten
  · exact (m.mem_line hline).2 rfl
  · exact absurd hten (by decide)

theorem lines_newline : ∀ t ∈ m.lines detailed, 10 ∉ t := by
  intro t ht
  rcases List.mem_cons.mp ht with rfl | ht
  · exact fun h => (m.mem_line h).1 rfl
  · split at ht
    · exact (m.mem_accounting ht).2.1
    · cases ht

/-- The buffers of a mapping, as C strings. -/
theorem buffers_lines :
    ((m.lines detailed).flatMap fun line => Lines.buffersOf lineRoom (line ++ [10])).map Lines.cString =
      m.firstBuffer :: m.following detailed := by
  have hroom : 0 < lineRoom := by decide
  have hline : (Lines.buffersOf lineRoom (m.line ++ [10])).map Lines.cString = m.firstBuffer :: m.laterBuffers := by
    have hsame : (Lines.buffersOf lineRoom (m.line ++ [10])).map Lines.cString =
        Lines.buffersOf lineRoom (m.line ++ [10]) :=
      (List.map_congr_left fun piece hpiece => m.cString_buffer hpiece).trans (List.map_id _)
    have hnewline : 10 ∉ m.line := fun h => (m.mem_line h).1 rfl
    rw [hsame, Lines.buffersOf_of_ne_nil hroom (List.append_ne_nil_of_right_ne_nil _ (List.cons_ne_nil _ _)),
      Lines.fgets_take hnewline]
    rfl
  have haccounting : (m.accounting.flatMap fun line => Lines.buffersOf lineRoom (line ++ [10])).map Lines.cString =
      m.accounting.map (· ++ [10]) := by
    rw [List.map_flatMap, ← List.flatMap_singleton' (m.accounting.map (· ++ [10])), List.flatMap_map]
    refine List.flatMap_congr fun t ht => ?_
    obtain ⟨hfits, hten, hnul⟩ := m.mem_accounting ht
    have hplain : 0 ∉ t ++ [10] := fun h => (List.mem_append.mp h).elim hnul (by decide)
    rw [Lines.buffersOf_short hroom hten hfits, List.map_singleton, Lines.cString_of_noNul hplain]
  rw [lines, List.flatMap_cons, List.map_append, hline, following]
  split
  · rw [haccounting]
    rfl
  · rfl

end Mapping

theorem linesOf_textOf (detailed : Bool) (mappings : List Mapping) :
    linesOf (textOf detailed mappings) = mappings.flatMap fun m => m.firstBuffer :: m.following detailed := by
  have hnewline : ∀ line ∈ mappings.flatMap fun m => m.lines detailed, 10 ∉ line := by
    intro line hline
    obtain ⟨m, -, hline⟩ := List.mem_flatMap.mp hline
    exact m.lines_newline detailed line hline
  rw [linesOf, textOf, Lines.buffersOf_lines (by decide) hnewline, List.flatMap_assoc, List.map_flatMap]
  exact List.flatMap_congr fun m _ => m.buffers_lines detailed

/-! ### The items -/

namespace Mapping
variable (m : Mapping) (detailed : Bool)

theorem scanHeader_following {piece : Text} (h : piece ∈ m.following detailed)
    (hwhole : ∀ piece ∈ m.laterBuffers, scanHeader piece = none) : scanHeader piece = none := by
  rcases List.mem_append.mp h with hlater | haccounting
  · exact hwhole piece hlater
  · split at haccounting
    · obtain ⟨t, ht, rfl⟩ := List.mem_map.mp haccounting
      exact m.scanHeader_accounting ht
    · cases haccounting

/-- How many buffers behind the first begin an item. -/
def strays : Nat := m.laterBuffers.countP fun piece => (scanHeader piece).isSome

theorem countP_following : (m.following detailed).countP (fun piece => (scanHeader piece).isSome) = m.strays := by
  have hnone : (if detailed then m.accounting.map (· ++ [10]) else []).countP
      (fun piece => (scanHeader piece).isSome) = 0 := by
    refine List.countP_eq_zero.mpr fun piece hpiece => ?_
    split at hpiece
    · obtain ⟨t, ht, rfl⟩ := List.mem_map.mp hpiece
      rw [m.scanHeader_accounting ht]
      exact Bool.false_ne_true
    · cases hpiece
  rw [following, List.countP_append, hnone]
  rfl

theorem strays_eq_zero : m.strays = 0 ↔ ∀ piece ∈ m.laterBuffers, scanHeader piece = none := by
  rw [strays, List.countP_eq_zero]
  exact forall₂_congr fun piece _ => by rw [Bool.not_eq_true, Option.isSome_eq_false_iff, Option.isNone_iff_eq_none]

/-- The item that is read, where no other buffer of the line begins one. -/
def readItem : LsmMemoryMapInfo := {m.item detailed with path := Chars.ofText (pathname (skipSpace m.firstTail))}

/-- The path that is read is the one shown exactly under the conditions on it. -/
theorem readItem_eq_iff : m.readItem detailed = m.item detailed ↔
    (∀ b ∈ m.shown.head?, isSpace b = false) ∧ 13 ∉ m.shown.take (lsmInspectionMapPathLen - 1) ∧
      (m.shown = [] ∨ m.lead + min (lsmInspectionMapPathLen - 1) m.shown.length ≤ lineRoom) := by
  have hten : 10 ∉ m.shown := fun h => (mem_escapePath ((List.dropWhile_suffix _).subset h)).1 rfl
  have hnul : 0 ∉ m.shown := by
    intro h
    obtain ⟨-, hpath | hlow⟩ := mem_escapePath ((List.dropWhile_suffix _).subset h)
    · exact m.noNul hpath
    · exact absurd hlow (by decide)
  have hread : 0 ∉ pathname (skipSpace m.firstTail) := by
    intro h
    have htail : 0 ∈ m.nameField ++ [10] := List.mem_of_mem_take ((List.dropWhile_suffix _).subset
      ((List.dropWhile_suffix _).subset ((List.takeWhile_prefix _).subset (List.mem_of_mem_take h))))
    rcases List.mem_append.mp htail with hname | h
    · refine (m.mem_line (b := 0) ?_).2 rfl
      rw [line, head_eq]
      exact List.mem_append_right _ hname
    · exact absurd h (by decide)
  have hpath : m.readItem detailed = m.item detailed ↔
      pathname (skipSpace m.firstTail) = m.shown.take (lsmInspectionMapPathLen - 1) := by
    have hshort : (pathname (skipSpace m.firstTail)).length ≤ lsmInspectionMapPathLen - 1 := List.length_take_le ..
    constructor
    · intro h
      have htext := congrArg (fun item : LsmMemoryMapInfo => item.path.text) h
      have hleft : (Chars.ofText (pathname (skipSpace m.firstTail)) : Chars lsmInspectionMapPathLen).text =
        pathname (skipSpace m.firstTail) := Chars.ofText_text hread hshort
      rw [← hleft]
      refine htext.trans ?_
      exact congrArg (List.take _) (Lines.cString_of_noNul hnul)
    · intro h
      have hkept : (Chars.ofText (m.shown.take (lsmInspectionMapPathLen - 1)) : Chars lsmInspectionMapPathLen) =
          Chars.ofText m.shown := by
        have hplain : 0 ∉ m.shown.take (lsmInspectionMapPathLen - 1) := fun h => hnul (List.mem_of_mem_take h)
        refine Chars.eq_of_text ((Chars.ofText_text hplain (List.length_take_le ..)).trans ?_)
        exact congrArg (List.take _) (Lines.cString_of_noNul hnul).symm
      rw [readItem, h, hkept]
      rfl
  rw [hpath, skipSpace_firstTail, pathname_shown hten]
  refine and_congr_right fun hspace => and_congr_right fun _ => or_congr_right' fun hne => ?_
  have hpos : 0 < min (lsmInspectionMapPathLen - 1) m.shown.length :=
    Nat.lt_min.mpr ⟨by decide, List.length_pos_iff.mpr hne⟩
  omega

end Mapping

section
variable (lib : Library)

theorem foldl_onItem_false (current : LsmMemoryMapInfo) (lines : List Text) :
    lines.foldl (onItem lib false) current = current := by
  induction lines with
  | nil => rfl
  | cons line lines ih => exact ih

theorem foldl_onItem_notes (notes : List Note) (current : LsmMemoryMapInfo) :
    ((notes.map Note.line).map (· ++ [10])).foldl (onItem lib true) current = current := by
  induction notes with
  | nil => rfl
  | cons n notes ih =>
    rw [List.map_cons, List.map_cons, List.foldl_cons, onItem, if_pos rfl, account_note]
    exact ih

/-- The lines of the accounting leave the mapping's own counts, whatever was there. -/
theorem foldl_onItem_accounting (m : Mapping) (current : LsmMemoryMapInfo) :
    (m.accounting.map (· ++ [10])).foldl (onItem lib true) current =
      current.accounted ((m.kib .privateClean).val * 1024) ((m.kib .privateDirty).val * 1024)
        ((m.kib .sharedClean).val * 1024) ((m.kib .sharedDirty).val * 1024) := by
  have hamount : ∀ amount current, onItem lib true current (amountLine amount (m.kib amount) ++ [10]) =
      amount.set current ((m.kib amount).val * 1024) := fun amount current =>
    (if_pos rfl).trans (account_amount lib amount (m.kib amount) current)
  rw [Mapping.accounting, List.map_append, List.map_append, List.foldl_append, List.foldl_append, foldl_onItem_notes,
    foldl_onItem_notes]
  simp only [List.map_cons, List.map_nil, List.foldl_cons, List.foldl_nil, hamount]
  rfl

theorem foldl_following (m : Mapping) (detailed : Bool) :
    (m.following detailed).foldl (onItem lib detailed) (m.header.item (skipSpace m.firstTail)) = m.readItem detailed := by
  cases detailed with
  | false =>
    rw [foldl_onItem_false]
    rfl
  | true =>
    rw [Mapping.following, if_pos rfl, List.foldl_append, foldl_onItem_accounting, foldl_onItem_accounted]
    rfl

/-- A mapping with no stray buffer adds its one item. -/
theorem foldl_onLine_mapping {m : Mapping} (h : m.strays = 0) (detailed : Bool) (items : List LsmMemoryMapInfo) :
    (m.firstBuffer :: m.following detailed).foldl (onLine lib detailed) items = m.readItem detailed :: items := by
  have hfirst : onLine lib detailed items m.firstBuffer = m.header.item (skipSpace m.firstTail) :: items := by
    rw [onLine, m.scanHeader_firstBuffer]
  have hplain : ∀ piece ∈ m.following detailed, scanHeader piece = none := fun piece hpiece =>
    m.scanHeader_following detailed hpiece (m.strays_eq_zero.mp h)
  rw [List.foldl_cons, hfirst, foldl_onLine_plain hplain, foldl_following]

theorem foldl_onLine_mappings {mappings : List Mapping} (h : ∀ m ∈ mappings, m.strays = 0) (detailed : Bool)
    (items : List LsmMemoryMapInfo) : (linesOf (textOf detailed mappings)).foldl (onLine lib detailed) items =
      (mappings.map fun m => m.readItem detailed).reverse ++ items := by
  rw [linesOf_textOf]
  induction mappings generalizing items with
  | nil => rfl
  | cons m mappings ih =>
    rw [List.flatMap_cons, List.foldl_append, foldl_onLine_mapping lib (h m (List.mem_cons_self ..)),
      ih fun other hother => h other (List.mem_cons_of_mem _ hother), List.map_cons, List.reverse_cons, List.append_assoc]
    rfl

/-- There is one item for each mapping, and one for each stray buffer. -/
theorem length_items (mappings : List Mapping) (detailed : Bool) :
    ((linesOf (textOf detailed mappings)).foldl (onLine lib detailed) []).length =
      mappings.length + (mappings.map Mapping.strays).sum := by
  rw [length_foldl_onLine, linesOf_textOf, List.length_nil, Nat.zero_add]
  induction mappings with
  | nil => rfl
  | cons m mappings ih =>
    rw [List.flatMap_cons, List.countP_append, ih, List.countP_cons, m.scanHeader_firstBuffer, m.countP_following,
      List.map_cons, List.sum_cons, List.length_cons]
    simp only [Option.isSome_some, if_true]
    omega

end

/-! ### One mapping -/

/-- A kernel that shows the text as the `smaps` of the first process. -/
def smapsOnly (text : Text) : System where
  procfsRoot := ascii "/proc"
  fopen path := if path = ascii "/proc/1/smaps" then .ok {bytes := text} else .error 2
  reserve _ := none

theorem firstSmaps_path : processPath (ascii "/proc") 1 (ascii "smaps") = some (ascii "/proc/1/smaps") := by decide

theorem smapsOnly_fopen (text : Text) : (smapsOnly text).fopen (ascii "/proc/1/smaps") = .ok {bytes := text} := by
  dsimp only [smapsOnly]
  exact if_pos rfl

theorem smapsOnly_exposes (text : Text) : Exposes (smapsOnly text) 1 true text where
  native := by decide
  reserve _ := rfl
  file := ⟨ascii "/proc/1/smaps", firstSmaps_path, smapsOnly_fopen text⟩
  fallback h := by cases h

/-- One page of a file. -/
def pageOf (path : Text) (noNul : 0 ∉ path) : Mapping where
  start := 0x400000
  stop := 0x401000
  readable := true
  writable := false
  executable := false
  shared := false
  offset := 0
  major := 8
  minor := 1
  inode := 5
  padding := 33
  path
  noNul
  before := []
  kib amount := if amount = .privateClean then 4 else 0
  after := []

/-- **Each mapping has one item of its own exactly where every mapping is read as it is.** -/
theorem memory_maps_exact_iff (lib : Library) {sys : System} {processId : Nat} {detailed : Bool} {mappings : List Mapping}
    (h : Exposes sys processId detailed (textOf detailed mappings)) :
    lsmProcessInspectionMemoryMapsChecked lib sys processId = .ok (mappings.map fun m => m.item detailed) ↔
      ∀ m ∈ mappings, m.Clean := by
  rw [memoryMaps_eq lib h, Except.ok.injEq]
  constructor
  · intro hitems
    have hsum : (mappings.map Mapping.strays).sum = 0 := by
      have hlength := congrArg List.length hitems
      rw [List.length_reverse, length_items, List.length_map] at hlength
      omega
    have hstrays : ∀ m ∈ mappings, m.strays = 0 := fun m hm =>
      List.sum_eq_zero_iff.mp hsum m.strays (List.mem_map_of_mem hm)
    rw [foldl_onLine_mappings lib hstrays, List.append_nil, List.reverse_reverse] at hitems
    intro m hm
    obtain ⟨hspace, hreturn, hfits⟩ := (m.readItem_eq_iff detailed).mp (List.map_inj_left.mp hitems m hm)
    exact ⟨m.strays_eq_zero.mp (hstrays m hm), hspace, hreturn, hfits⟩
  · intro hclean
    rw [foldl_onLine_mappings lib fun m hm => m.strays_eq_zero.mpr (hclean m hm).whole, List.append_nil,
      List.reverse_reverse]
    refine List.map_congr_left fun m hm => (m.readItem_eq_iff detailed).mpr ?_
    exact ⟨(hclean m hm).noSpace, (hclean m hm).noReturn, (hclean m hm).fits⟩

theorem binTrue_noNul : 0 ∉ ascii "/bin/true" := by decide

theorem memory_maps_exact_iff_page :
    lsmProcessInspectionMemoryMapsChecked .documented
        (smapsOnly (textOf true [pageOf (ascii "/bin/true") binTrue_noNul])) 1 =
      .ok ([pageOf (ascii "/bin/true") binTrue_noNul].map fun m => m.item true) ↔
      ∀ m ∈ [pageOf (ascii "/bin/true") binTrue_noNul], m.Clean :=
  memory_maps_exact_iff .documented (smapsOnly_exposes (textOf true [pageOf (ascii "/bin/true") binTrue_noNul]))

/-- Directories with names of two hundred bytes, and a name that ends in the head of a mapping. -/
def strayPath : Text :=
  (List.replicate 20 (47 :: List.replicate 200 97)).flatten ++ (ascii "/a" ++ ascii "1-2 r 0 d 0 ")

theorem mem_strayPath {b : UInt8} (h : b ∈ strayPath) : b ≠ 0 ∧ b ≠ 10 := by
  rcases List.mem_append.mp h with h | h
  · obtain ⟨name, hname, hb⟩ := List.mem_flatten.mp h
    rw [List.eq_of_mem_replicate hname] at hb
    rcases List.mem_cons.mp hb with rfl | hb
    · decide
    · rw [List.eq_of_mem_replicate hb]
      decide
  · have hall : ∀ b ∈ ascii "/a" ++ ascii "1-2 r 0 d 0 ", b ≠ 0 ∧ b ≠ 10 := bytes_of_all (by decide)
    exact hall b h

theorem strayPath_noNul : 0 ∉ strayPath := fun h => (mem_strayPath h).1 rfl

def strayMapping : Mapping := pageOf strayPath strayPath_noNul

theorem strayMapping_strays : strayMapping.strays = 1 := by
  have hescape : escapePath strayPath = strayPath := by
    rw [escapePath, List.flatMap_congr fun b hb => if_neg (mem_strayPath hb).2, List.flatMap_singleton']
  have hfront : ((strayMapping.head [] ++ (List.replicate 33 32 ++
      ((List.replicate 20 (47 :: List.replicate 200 97)).flatten ++ ascii "/a"))) : Text).length = lineRoom := by
    have hhead : (strayMapping.head []).length = 40 := by decide
    have hnames : (List.replicate 20 (47 :: List.replicate 200 97) : List Text).flatten.length = 4020 := by
      rw [List.length_flatten, List.map_replicate, List.length_cons, List.length_replicate, List.sum_replicate]
      rfl
    rw [List.length_append, List.length_append, List.length_append, hhead, hnames, List.length_replicate]
    rfl
  have hline : strayMapping.line ++ [10] = (strayMapping.head [] ++ (List.replicate 33 32 ++
      ((List.replicate 20 (47 :: List.replicate 200 97)).flatten ++ ascii "/a"))) ++ ascii "1-2 r 0 d 0 \n" := by
    rw [Mapping.line, Mapping.head_eq, Mapping.nameField, show strayMapping.path = strayPath from rfl, hescape, strayPath]
    simp only [List.append_assoc]
    rfl
  have hlater : strayMapping.laterBuffers = [ascii "1-2 r 0 d 0 " ++ [10]] := by
    rw [Mapping.laterBuffers, hline, List.drop_left' hfront]
    exact @Lines.buffersOf_short lineRoom (by decide) (ascii "1-2 r 0 d 0 ") (by decide) (by decide)
  rw [Mapping.strays, hlater]
  decide

/-- **A path longer than the buffer makes an item of its own.** -/
theorem long_path_makes_item :
    Exposes (smapsOnly (textOf true [strayMapping])) 1 true (textOf true [strayMapping]) ∧
      (∃ items, lsmProcessInspectionMemoryMapsChecked .documented (smapsOnly (textOf true [strayMapping])) 1 =
        .ok items ∧ items.length = 2) ∧
      lsmProcessInspectionMemoryMapsChecked .documented (smapsOnly (textOf true [strayMapping])) 1 ≠
        .ok ([strayMapping].map fun m => m.item true) := by
  have hexposes := smapsOnly_exposes (textOf true [strayMapping])
  have hlength := length_items .documented [strayMapping] true
  rw [List.map_singleton, List.sum_singleton, strayMapping_strays] at hlength
  have heq := memoryMaps_eq .documented hexposes
  refine ⟨hexposes, ⟨_, heq, List.length_reverse.trans hlength⟩, fun h => ?_⟩
  rw [heq] at h
  have hsame := congrArg List.length (Except.ok.inj h)
  rw [List.length_reverse, hlength] at hsame
  cases hsame

end SystemMonitor.Process.MemoryMaps
