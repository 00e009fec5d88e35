import SystemMonitor.Process.MemoryMaps

/-! What the kernel prints of a list of mappings, and what the inspector reads of a line.

A mapping is a line of its own, with its path at the end, and in `smaps` its accounting
follows. The path is what the process chose; only a newline in it is escaped. The head of
a mapping is scanned as it was printed (`scanHeader_head`), an accounting line sets its own
count (`account_amount`), and any other line of the accounting changes nothing
(`account_note`). -/
namespace SystemMonitor.Process.MemoryMaps
open Lib Lib.Scanf

/-! ### What the kernel prints -/

def escapePath (path : Text) : Text := path.flatMap fun b => if b = 10 then ascii "\\012" else [b]

/-- The accounting that the inspector looks for. -/
inductive Amount
  | privateClean
  | privateDirty
  | sharedClean
  | sharedDirty
  deriving DecidableEq

def Amount.label : Amount → Text
  | .privateClean => ascii "Private_Clean"
  | .privateDirty => ascii "Private_Dirty"
  | .sharedClean => ascii "Shared_Clean"
  | .sharedDirty => ascii "Shared_Dirty"

/-- A letter or an underscore. -/
def isLabelByte (b : UInt8) : Bool := (65 ≤ b && b ≤ 90) || (97 ≤ b && b ≤ 122) || b == 95

/-- Another line of a mapping's accounting. -/
structure Note where
  label : Text
  value : Text
  letters : ∀ b ∈ label, isLabelByte b = true
  other : ∀ amount : Amount, label ≠ amount.label
  noNewline : 10 ∉ value
  noNul : 0 ∉ value
  fits : label.length + 1 + value.length < lineRoom

def Note.line (n : Note) : Text := n.label ++ 58 :: n.value

/-- A count of kibibytes, right aligned. -/
def amountLine (amount : Amount) (kib : Nat) : Text :=
  amount.label ++ 58 :: (List.replicate (11 - (decimal.print kib).length) 32 ++ decimal.print kib ++ ascii " kB")

structure Mapping where
  start : UInt64
  stop : UInt64
  readable : Bool
  writable : Bool
  executable : Bool
  shared : Bool
  offset : UInt64
  major : UInt32
  minor : UInt32
  inode : UInt64
  /-- The blanks that align the path. -/
  padding : Nat
  path : Text
  noNul : 0 ∉ path
  before : List Note
  kib : Amount → Fin (2 ^ 54)
  after : List Note

namespace Mapping
variable (m : Mapping)

def permissions : Text :=
  [if m.readable then 114 else 45, if m.writable then 119 else 45, if m.executable then 120 else 45,
    if m.shared then 115 else 112]

def device : Text := hexadecimal.printPadded 2 m.major.toNat ++ 58 :: hexadecimal.printPadded 2 m.minor.toNat

/-- The line up to the path, and what stands behind it. -/
def head (tail : Text) : Text :=
  hexadecimal.printPadded 8 m.start.toNat ++ 45 :: (hexadecimal.printPadded 8 m.stop.toNat ++ 32 ::
    (m.permissions ++ 32 :: (hexadecimal.printPadded 8 m.offset.toNat ++ 32 ::
      (m.device ++ 32 :: (decimal.print m.inode.toNat ++ 32 :: tail)))))

def nameField : Text := List.replicate m.padding 32 ++ escapePath m.path

def line : Text := m.head m.nameField

/-- The accounting lines of the mapping in `smaps`. -/
def accounting : List Text :=
  m.before.map Note.line ++
    [amountLine .sharedClean (m.kib .sharedClean), amountLine .sharedDirty (m.kib .sharedDirty),
      amountLine .privateClean (m.kib .privateClean), amountLine .privateDirty (m.kib .privateDirty)] ++
    m.after.map Note.line

def lines (detailed : Bool) : List Text := m.line :: if detailed then m.accounting else []

end Mapping

/-- The text of the file. -/
def textOf (detailed : Bool) (mappings : List Mapping) : Text :=
  (mappings.flatMap fun m => m.lines detailed).flatMap (· ++ [10])

/-- What a test finds of every byte of a text. -/
theorem bytes_of_all {p : UInt8 → Prop} [DecidablePred p] {t : Text} (h : (t.all fun b => decide (p b)) = true) :
    ∀ b ∈ t, p b :=
  fun b hb => of_decide_eq_true (List.all_eq_true.mp h b hb)

/-! ### The head of a mapping -/

namespace Mapping
variable (m : Mapping)

theorem head_append (a b : Text) : m.head a ++ b = m.head (a ++ b) := by
  simp only [head, List.append_assoc, List.cons_append]

theorem head_eq (tail : Text) : m.head tail = m.head [] ++ tail := by
  rw [head_append, List.nil_append]

theorem permissions_noSpace : ∀ b ∈ m.permissions, isSpace b = false := by
  unfold permissions
  cases m.readable <;> cases m.writable <;> cases m.executable <;> cases m.shared <;> exact bytes_of_all (by decide)

theorem length_permissions : m.permissions.length ≤ 7 := show 4 ≤ 7 by decide

theorem mem_device {b : UInt8} (hb : b ∈ m.device) : b = 58 ∨ ∃ d < 16, b = hexDigit d := by
  rcases List.mem_append.mp hb with hmajor | hminor
  · exact .inr (hexadecimal.mem_printPadded hmajor)
  · rcases List.mem_cons.mp hminor with rfl | hminor
    · exact .inl rfl
    · exact .inr (hexadecimal.mem_printPadded hminor)

theorem device_noSpace : ∀ b ∈ m.device, isSpace b = false := by
  intro b hb
  rcases m.mem_device hb with rfl | ⟨d, hd, rfl⟩
  · decide
  · exact (plain_hexadecimal d hd).1

theorem length_device : m.device.length ≤ 17 := by
  have hmajor := hexadecimal.length_printPadded 2 8 (by decide) m.major.toNat_lt
  have hminor := hexadecimal.length_printPadded 2 8 (by decide) m.minor.toNat_lt
  rw [device, List.length_append, List.length_cons]
  omega

theorem device_ne_nil : m.device ≠ [] := List.append_ne_nil_of_right_ne_nil _ (List.cons_ne_nil _ _)

/-- The head of a line is scanned as it was printed, whatever follows. -/
theorem scanHeader_head (tail : Text) : scanHeader (m.head tail) =
    some (⟨m.start.toNat, m.stop.toNat, m.permissions, m.offset.toNat, m.device, m.inode.toNat⟩, skipSpace tail) := by
  have hspace : isSpace 32 = true := rfl
  unfold scanHeader head
  rw [scanUnsigned_printPadded plain_hexadecimal (by decide) m.start.toNat_lt (by decide) (by decide)]
  dsimp only [Option.bind_eq_bind, Option.bind_some, scanChar]
  rw [if_pos rfl, Option.bind_some,
    scanUnsigned_printPadded plain_hexadecimal (by decide) m.stop.toNat_lt (by decide) (by decide), Option.bind_some,
    scanWord_space hspace, scanWord_word m.permissions_noSpace (List.cons_ne_nil _ _) m.length_permissions hspace,
    Option.bind_some, scanUnsigned_space hspace,
    scanUnsigned_printPadded plain_hexadecimal (by decide) m.offset.toNat_lt (by decide) (by decide), Option.bind_some,
    scanWord_space hspace,
    scanWord_word m.device_noSpace m.device_ne_nil (m.length_device.trans (by decide)) hspace, Option.bind_some,
    scanUnsigned_space hspace, scanUnsigned_print plain_decimal m.inode.toNat_lt (by decide) (by decide),
    Option.bind_some, skipSpace_space hspace]
  rfl

theorem length_head : (m.head []).length ≤ 95 := by
  have hstart := hexadecimal.length_printPadded 8 16 (by decide) m.start.toNat_lt
  have hstop := hexadecimal.length_printPadded 8 16 (by decide) m.stop.toNat_lt
  have hoffset := hexadecimal.length_printPadded 8 16 (by decide) m.offset.toNat_lt
  have hinode : (decimal.print m.inode.toNat).length ≤ 20 := by
    rw [print_decimal]
    exact Decimal.length_print (by decide) (Nat.lt_of_lt_of_le m.inode.toNat_lt (by decide))
  have hpermissions : m.permissions.length = 4 := rfl
  have hdevice := m.length_device
  simp only [head, List.length_append, List.length_cons, List.length_nil]
  omega

end Mapping

/-! ### The accounting lines -/

theorem plain_of_isLabelByte {b : UInt8} (h : isLabelByte b = true) :
    isSpace b = false ∧ b ≠ 45 ∧ b ≠ 43 ∧ b ≠ 48 ∧ b ≠ 58 ∧ b ≠ 10 ∧ b ≠ 0 := by
  have hlow : 65 ≤ b := by
    rw [isLabelByte] at h
    grind
  refine ⟨?_, ?_, ?_, ?_, ?_, ?_, ?_⟩
  · rw [isSpace]
    grind
  all_goals grind

theorem label_letters (amount : Amount) : ∀ b ∈ amount.label, isLabelByte b = true := by
  cases amount <;> exact bytes_of_all (by decide)

section
variable {label : Text} (hletters : ∀ b ∈ label, isLabelByte b = true)
include hletters

theorem takeWhile_label (rest : Text) : (label ++ 58 :: rest).takeWhile (· != 58) = label := by
  have hall : ∀ b ∈ label, (b != 58) = true := fun b hb => bne_iff_ne.mpr (plain_of_isLabelByte (hletters b hb)).2.2.2.2.1
  rw [List.takeWhile_append_of_pos hall, List.takeWhile_cons_of_neg (by decide), List.append_nil]

/-- A line with a label is no header. -/
theorem scanHeader_label (rest : Text) : scanHeader (label ++ 58 :: rest) = none := by
  obtain ⟨b, more, hline, hb⟩ : ∃ b more, label ++ 58 :: rest = b :: more ∧
      (isSpace b = false ∧ b ≠ 45 ∧ b ≠ 43 ∧ b ≠ 48) := by
    cases label with
    | nil => exact ⟨58, rest, rfl, by decide⟩
    | cons b label =>
      have hplain := plain_of_isLabelByte (hletters b (List.mem_cons_self ..))
      exact ⟨b, label ++ 58 :: rest, rfl, hplain.1, hplain.2.1, hplain.2.2.1, hplain.2.2.2.1⟩
  have hsign : scanSign (skipSpace (label ++ 58 :: rest)) = (false, label ++ 58 :: rest) := by
    rw [hline, skipSpace_of_not hb.1, scanSign, if_neg hb.2.1, if_neg hb.2.2.1]
  have hmark : skipMark 16 (label ++ 58 :: rest) = label ++ 58 :: rest := by
    rw [hline]
    cases more with
    | nil => rfl
    | cons c more => exact if_neg fun h => hb.2.2.2 h.2.1
  have hdash : scanChar 45 ((label ++ 58 :: rest).dropWhile hexadecimal.isDigit) = none := by
    clear hline hsign hmark
    induction label with
    | nil =>
      rw [List.nil_append, List.dropWhile_cons_of_neg (by decide)]
      rfl
    | cons b label ih =>
      rw [List.cons_append, List.dropWhile_cons]
      split
      · exact ih fun c hc => hletters c (List.mem_cons_of_mem _ hc)
      · exact if_neg (plain_of_isLabelByte (hletters b (List.mem_cons_self ..))).2.1
  have hdrop : (label ++ 58 :: rest).drop ((label ++ 58 :: rest).takeWhile hexadecimal.isDigit).length =
      (label ++ 58 :: rest).dropWhile hexadecimal.isDigit := by
    have hsplit := List.takeWhile_append_dropWhile (p := hexadecimal.isDigit) (l := label ++ 58 :: rest)
    calc (label ++ 58 :: rest).drop ((label ++ 58 :: rest).takeWhile hexadecimal.isDigit).length
      _ = ((label ++ 58 :: rest).takeWhile hexadecimal.isDigit ++
            (label ++ 58 :: rest).dropWhile hexadecimal.isDigit).drop
            ((label ++ 58 :: rest).takeWhile hexadecimal.isDigit).length := by rw [hsplit]
      _ = (label ++ 58 :: rest).dropWhile hexadecimal.isDigit := List.drop_left
  unfold scanHeader scanUnsigned
  dsimp only
  rw [hsign]
  dsimp only
  rw [hmark, hdrop]
  split
  · rfl
  · dsimp only [Option.bind_eq_bind, Option.bind_some]
    rw [hdash]
    rfl

variable (lib : Library)

theorem parseSmapsBytes_other {name : Text} (hname : ∀ b ∈ name, isLabelByte b = true) (hne : label ≠ name) (rest : Text) :
    parseSmapsBytes lib (label ++ 58 :: rest) (name ++ [58]) = none := by
  refine if_neg fun h => hne ?_
  obtain ⟨more, hmore⟩ := List.isPrefixOf_iff_prefix.mp h
  rw [List.append_assoc, List.singleton_append] at hmore
  rw [← takeWhile_label hletters rest, ← takeWhile_label hname more, hmore]

end

section
variable (lib : Library)

theorem parseSmapsBytes_own (amount : Amount) (kib : Fin (2 ^ 54)) :
    parseSmapsBytes lib (amountLine amount kib ++ [10]) (amount.label ++ [58]) = some (kib.val * 1024) := by
  have hspaces : ∀ b ∈ List.replicate (11 - (decimal.print kib).length) (32 : UInt8), lib.asciiIsSpace b = true := by
    intro b hb
    rw [List.eq_of_mem_replicate hb]
    exact (lib.asciiIsSpace_iff 32).mpr (.inl rfl)
  have hline : amountLine amount kib ++ [10] = amount.label ++ [58] ++
      (List.replicate (11 - (decimal.print kib).length) 32 ++ (Decimal.print kib ++ 32 :: ascii "kB\n")) := by
    simp only [amountLine, print_decimal, List.append_assoc, List.cons_append, List.nil_append]
    rfl
  have hstart := Procfs.dropWhile_print (fun b => lib.not_space_of_isDigit) kib.val (32 :: ascii "kB\n")
  have hle : kib.val ≤ uint64Max := by
    have hlt := kib.isLt
    unfold uint64Max
    omega
  have hend : (32 :: ascii "kB\n").dropWhile lib.asciiIsSpace = ascii "kB\n" := by
    have hk : ¬ lib.asciiIsSpace 107 = true := by
      rw [lib.asciiIsSpace_iff]
      decide
    rw [List.dropWhile_cons_of_pos ((lib.asciiIsSpace_iff 32).mpr (.inl rfl))]
    exact List.dropWhile_cons_of_neg hk
  have hproduct : kib.val * 1024 ≤ uint64Max := by
    have hlt := kib.isLt
    unfold uint64Max
    omega
  rw [hline, parseSmapsBytes, if_pos (List.isPrefixOf_iff_prefix.mpr ⟨_, rfl⟩), List.drop_left,
    List.dropWhile_append_of_pos hspaces, hstart, lib.parseU64Token_print hle (by decide), Option.bind_some]
  dsimp only
  rw [hend, if_neg (by decide), lib.multiplyChecked_eq, if_pos hproduct]

/-- An accounting line sets its own count. -/
def Amount.set : Amount → LsmMemoryMapInfo → Nat → LsmMemoryMapInfo
  | .privateClean, current, bytes => {current with privateCleanBytes := bytes, accountingAvailable := true}
  | .privateDirty, current, bytes => {current with privateDirtyBytes := bytes, accountingAvailable := true}
  | .sharedClean, current, bytes => {current with sharedCleanBytes := bytes, accountingAvailable := true}
  | .sharedDirty, current, bytes => {current with sharedDirtyBytes := bytes, accountingAvailable := true}

theorem account_amount (amount : Amount) (kib : Fin (2 ^ 54)) (current : LsmMemoryMapInfo) :
    account lib current (amountLine amount kib ++ [10]) = amount.set current (kib.val * 1024) := by
  have hown := parseSmapsBytes_own lib amount kib
  have hother : ∀ other : Amount, amount ≠ other → parseSmapsBytes lib (amountLine amount kib ++ [10]) (other.label ++ [58]) = none := by
    intro other hne
    have hlabel : amount.label ≠ other.label := by
      cases amount <;> cases other <;> first | exact absurd rfl hne | decide
    have hparse := parseSmapsBytes_other (label_letters amount) lib (label_letters other) hlabel
      (List.replicate (11 - (decimal.print kib).length) 32 ++ decimal.print kib ++ ascii " kB" ++ [10])
    rw [amountLine, List.append_assoc]
    exact hparse
  unfold account
  cases amount with
  | privateClean =>
    rw [show ascii "Private_Clean:" = Amount.privateClean.label ++ [58] from rfl, hown]
    rfl
  | privateDirty =>
    rw [show ascii "Private_Clean:" = Amount.privateClean.label ++ [58] from rfl, hother .privateClean (by decide),
      show ascii "Private_Dirty:" = Amount.privateDirty.label ++ [58] from rfl, hown]
    rfl
  | sharedClean =>
    rw [show ascii "Private_Clean:" = Amount.privateClean.label ++ [58] from rfl, hother .privateClean (by decide),
      show ascii "Private_Dirty:" = Amount.privateDirty.label ++ [58] from rfl, hother .privateDirty (by decide),
      show ascii "Shared_Clean:" = Amount.sharedClean.label ++ [58] from rfl, hown]
    rfl
  | sharedDirty =>
    rw [show ascii "Private_Clean:" = Amount.privateClean.label ++ [58] from rfl, hother .privateClean (by decide),
      show ascii "Private_Dirty:" = Amount.privateDirty.label ++ [58] from rfl, hother .privateDirty (by decide),
      show ascii "Shared_Clean:" = Amount.sharedClean.label ++ [58] from rfl, hother .sharedClean (by decide),
      show ascii "Shared_Dirty:" = Amount.sharedDirty.label ++ [58] from rfl, hown]
    rfl

/-- Any other line of the accounting changes nothing. -/
theorem account_note (n : Note) (current : LsmMemoryMapInfo) : account lib current (n.line ++ [10]) = current := by
  have hnone : ∀ amount : Amount, parseSmapsBytes lib (n.line ++ [10]) (amount.label ++ [58]) = none := by
    intro amount
    have hparse := parseSmapsBytes_other n.letters lib (label_letters amount) (n.other amount) (n.value ++ [10])
    rw [Note.line, List.append_assoc]
    exact hparse
  unfold account
  rw [show ascii "Private_Clean:" = Amount.privateClean.label ++ [58] from rfl, hnone,
    show ascii "Private_Dirty:" = Amount.privateDirty.label ++ [58] from rfl, hnone,
    show ascii "Shared_Clean:" = Amount.sharedClean.label ++ [58] from rfl, hnone,
    show ascii "Shared_Dirty:" = Amount.sharedDirty.label ++ [58] from rfl, hnone]

end

end SystemMonitor.Process.MemoryMaps
