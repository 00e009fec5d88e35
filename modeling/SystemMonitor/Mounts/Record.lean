import SystemMonitor.Lib.CStrings
import SystemMonitor.Mounts.Model

/-! Which mount records the parser recovers.

The kernel writes a record as fields with a space between them, and escapes space,
tab, newline and backslash in the texts that may have them. The parser takes words
apart, at vertical tabs, form feeds and carriage returns as well, and takes adjacent
separators as one. So a text with such a byte comes out as several words, and an empty
one as none. `parse_mount_line_iff` says which records are nevertheless recovered. -/
namespace SystemMonitor.Mounts
open Lib CStrings

variable (lib : Library)

/-! ### The parser on words -/

def words (t : Text) : List Text := tokens lib.asciiIsSpace t

def dash : Text := ascii "-"

theorem words_nextField (cursor : Text) : words lib cursor =
    match nextField lib cursor with
    | none => []
    | some (field, rest) => field :: words lib rest := by
  rw [words, tokens_eq, nextField]
  split <;> rfl

theorem separatorLoop_words {fuel : Nat} {cursor : Text} (h : (words lib cursor).length < fuel) :
    (separatorLoop lib fuel cursor).map (words lib) = ((words lib cursor).dropWhile (· != dash)).tail? := by
  induction fuel generalizing cursor with
  | zero => exact absurd h (Nat.not_lt_zero _)
  | succ fuel ih =>
    rw [words_nextField] at h ⊢
    rw [separatorLoop]
    cases hnext : nextField lib cursor with
    | none => rfl
    | some next =>
      obtain ⟨field, rest⟩ := next
      rw [hnext] at h
      simp only
      by_cases hdash : field = ascii "-"
      · rw [if_pos hdash, List.dropWhile_cons_of_neg (by rw [hdash]; decide)]
        rfl
      · rw [if_neg hdash, List.dropWhile_cons_of_pos (p := (· != dash)) (bne_iff_ne.mpr hdash)]
        exact ih (Nat.lt_of_succ_lt_succ h)

/-- What is done with the words behind the dash. -/
def ofTail (deviceNumber target : Text) : List Text → Option LsmMountInfoEntry
  | [filesystem, source, _] => do
    let (majorNumber, minorNumber) ← parseDeviceNumber lib deviceNumber
    let source ← decodeMountField 512 source
    let target ← decodeMountField 512 target
    let filesystem ← decodeMountField 64 filesystem
    return {majorNumber, minorNumber, source, target, filesystem}
  | _ => none

/-- The record that a line with these words gives. -/
def ofWords : List Text → Option LsmMountInfoEntry
  | mountId :: parentId :: deviceNumber :: root :: target :: _ :: more => do
    let _ ← lib.parseU64 mountId
    let _ ← lib.parseU64 parentId
    guard (root.head? = some 47 ∧ target.head? = some 47)
    let rest ← (more.dropWhile (· != dash)).tail?
    ofTail lib deviceNumber target rest
  | _ => none

/-- A function of the next field is one of the words. -/
theorem bind_nextField {α : Type} (cursor : Text) (f : List Text → Option α) (g : Text × Text → Option α)
    (hnil : f [] = none) (hcons : ∀ field rest, g (field, rest) = f (field :: words lib rest)) :
    (nextField lib cursor).bind g = f (words lib cursor) := by
  rw [words_nextField]
  cases nextField lib cursor with
  | none => exact hnil.symm
  | some next => exact hcons next.1 next.2

theorem nextField_eq_none (cursor : Text) : nextField lib cursor = none ↔ words lib cursor = [] := by
  rw [words_nextField]
  cases nextField lib cursor with
  | none => exact iff_of_true rfl rfl
  | some next => exact iff_of_false (Option.some_ne_none _) (List.cons_ne_nil _ _)

theorem parseTail_words (deviceNumber target cursor : Text) :
    (do
      let (filesystem, cursor) ← nextField lib cursor
      let (source, cursor) ← nextField lib cursor
      let (_, cursor) ← nextField lib cursor
      guard (nextField lib cursor = none)
      let (majorNumber, minorNumber) ← parseDeviceNumber lib deviceNumber
      let source ← decodeMountField 512 source
      let target ← decodeMountField 512 target
      let filesystem ← decodeMountField 64 filesystem
      return ({majorNumber, minorNumber, source, target, filesystem} : LsmMountInfoEntry)) =
      ofTail lib deviceNumber target (words lib cursor) := by
  refine bind_nextField lib cursor _ _ rfl fun filesystem cursor => ?_
  refine bind_nextField lib cursor (fun ws => ofTail lib deviceNumber target (filesystem :: ws)) _ rfl
    fun source cursor => ?_
  refine bind_nextField lib cursor (fun ws => ofTail lib deviceNumber target (filesystem :: source :: ws)) _ rfl
    fun _ cursor => ?_
  simp only
  by_cases hend : nextField lib cursor = none
  · rw [(nextField_eq_none lib cursor).mp hend, hend]
    rfl
  · cases hwords : words lib cursor with
    | nil => exact absurd ((nextField_eq_none lib cursor).mpr hwords) hend
    | cons field more =>
      simp only [hend, guard]
      rfl

theorem parseMountLine_words (line : Text) : parseMountLine lib line = ofWords lib (words lib line) := by
  refine bind_nextField lib line (ofWords lib) _ rfl fun mountId cursor => ?_
  refine bind_nextField lib cursor (fun ws => ofWords lib (mountId :: ws)) _ rfl fun parentId cursor => ?_
  refine bind_nextField lib cursor (fun ws => ofWords lib (mountId :: parentId :: ws)) _ rfl
    fun deviceNumber cursor => ?_
  refine bind_nextField lib cursor (fun ws => ofWords lib (mountId :: parentId :: deviceNumber :: ws)) _ rfl
    fun root cursor => ?_
  refine bind_nextField lib cursor (fun ws => ofWords lib (mountId :: parentId :: deviceNumber :: root :: ws)) _ rfl
    fun target cursor => ?_
  refine bind_nextField lib cursor
    (fun ws => ofWords lib (mountId :: parentId :: deviceNumber :: root :: target :: ws)) _ rfl fun options cursor => ?_
  have hloop := separatorLoop_words lib (Nat.lt_succ_of_le (length_tokens lib.asciiIsSpace cursor))
  simp only [ofWords, ← hloop, Option.bind_eq_bind]
  refine Option.bind_congr fun _ _ => Option.bind_congr fun _ _ => Option.bind_congr fun _ _ => ?_
  rw [Option.bind_map]
  exact Option.bind_congr fun cursor _ => parseTail_words lib deviceNumber target cursor

/-! ### What the kernel writes -/

/-- `seq_escape` with the bytes that mountinfo escapes. -/
def mangleByte (b : UInt8) : Text :=
  if b = 32 then ascii "\\040"
  else if b = 9 then ascii "\\011"
  else if b = 10 then ascii "\\012"
  else if b = 92 then ascii "\\134"
  else [b]

def mangle (t : Text) : Text := t.flatMap mangleByte

/-- The bytes that the kernel leaves and the parser takes for space. -/
def cuts (b : UInt8) : Bool := b == 11 || b == 12 || b == 13

/-- What the parser makes of a text, once it is decoded. -/
def pieces (t : Text) : List Text := tokens cuts t

/-- A mount as the kernel has it. Only the texts can hold any byte; the option fields are
words of its own, and the super options start with `ro` or `rw`. -/
structure MountRecord where
  mountId : Nat
  parentId : Nat
  major : Nat
  minor : Nat
  root : Text
  target : Text
  options : Text
  optional : List Text
  filesystem : Text
  source : Text
  superOptions : Text
  ids : mountId ≤ uint64Max ∧ parentId ≤ uint64Max
  device : major ≤ uintMax ∧ minor ≤ uintMax
  absolute : root.head? = some 47 ∧ target.head? = some 47
  fields : ∀ field ∈ options :: optional, field ≠ [] ∧ field ≠ dash ∧ ∀ b ∈ field, ¬ (b = 32 ∨ 9 ≤ b ∧ b ≤ 13)
  readMode : superOptions.head? = some 114
  nulFree : ∀ t ∈ [root, target, filesystem, source], 0 ∉ t

/-- The fields of a record, as `show_mountinfo` writes them. -/
def mountFields (record : MountRecord) : List Text :=
  [Decimal.print record.mountId, Decimal.print record.parentId,
    Decimal.print record.major ++ 58 :: Decimal.print record.minor, mangle record.root, mangle record.target,
    record.options] ++ record.optional ++
  [dash, mangle record.filesystem, mangle record.source, record.superOptions]

def mountLine (record : MountRecord) : Text := Lines.join 32 (mountFields record) ++ [10]

theorem space_of_cuts {b : UInt8} (h : cuts b = true) : lib.asciiIsSpace b = true := by
  rw [lib.asciiIsSpace_iff]
  simp only [cuts, Bool.or_eq_true, beq_iff_eq] at h
  rcases h with (rfl | rfl) | rfl <;> decide

theorem space_eq_false {b : UInt8} (h : ¬ (b = 32 ∨ 9 ≤ b ∧ b ≤ 13)) : lib.asciiIsSpace b = false := by
  rwa [← Bool.not_eq_true, lib.asciiIsSpace_iff]

theorem mangleByte_word {b : UInt8} (h : cuts b = false) :
    mangleByte b ≠ [] ∧ ∀ c ∈ mangleByte b, lib.asciiIsSpace c = false := by
  suffices hbytes : mangleByte b ≠ [] ∧ ∀ c ∈ mangleByte b, ¬ (c = 32 ∨ 9 ≤ c ∧ c ≤ 13) from
    ⟨hbytes.1, fun c hc => space_eq_false lib (hbytes.2 c hc)⟩
  by_cases hspace : b = 32 ∨ b = 9 ∨ b = 10 ∨ b = 92
  · rcases hspace with rfl | rfl | rfl | rfl <;> decide +kernel
  · simp only [not_or] at hspace
    obtain ⟨h32, h9, h10, h92⟩ := hspace
    rw [mangleByte, if_neg h32, if_neg h9, if_neg h10, if_neg h92]
    refine ⟨List.cons_ne_nil _ _, ?_⟩
    intro c hc
    rw [List.mem_singleton.mp hc]
    simp only [cuts, Bool.or_eq_false_iff, beq_eq_false_iff_ne, ne_eq] at h
    simp only [UInt8.le_iff_toNat_le, ← UInt8.toNat_inj] at *
    simp only [UInt8.reduceToNat] at *
    omega

theorem words_mangle (t : Text) : words lib (mangle t) = (pieces t).map mangle := by
  apply tokens_flatMap
  · intro b hb
    refine ⟨b, ?_, space_of_cuts lib hb⟩
    simp only [cuts, Bool.or_eq_true, beq_iff_eq] at hb
    rcases hb with (rfl | rfl) | rfl <;> decide
  · exact fun b hb => mangleByte_word lib hb

theorem words_join (fields : List Text) : words lib (Lines.join 32 fields) = fields.flatMap (words lib) := by
  have hspace : lib.asciiIsSpace 32 = true := (lib.asciiIsSpace_iff 32).mpr (Or.inl rfl)
  induction fields with
  | nil => exact tokens_nil _
  | cons field rest ih =>
    cases rest with
    | nil => rw [Lines.join, List.flatMap_singleton]
    | cons next rest =>
      rw [Lines.join, words, tokens_append _ _ hspace, List.flatMap_cons, ← ih]
      rfl

theorem words_field {field : Text} (hne : field ≠ []) (h : ∀ b ∈ field, ¬ (b = 32 ∨ 9 ≤ b ∧ b ≤ 13)) :
    words lib field = [field] :=
  tokens_word (fun b hb => space_eq_false lib (h b hb)) hne

theorem print_noSpace (n : Nat) : ∀ b ∈ Decimal.print n, ¬ (b = 32 ∨ 9 ≤ b ∧ b ≤ 13) := by
  intro b hb hspace
  have hdigit := Decimal.mem_print hb
  simp only [Decimal.isDigit, Bool.and_eq_true, decide_eq_true_eq, UInt8.le_iff_toNat_le] at hdigit
  simp only [UInt8.le_iff_toNat_le, ← UInt8.toNat_inj] at hspace
  simp only [UInt8.reduceToNat] at *
  omega

theorem words_device (major minor : Nat) : words lib (Decimal.print major ++ 58 :: Decimal.print minor) =
    [Decimal.print major ++ 58 :: Decimal.print minor] := by
  apply words_field
  · exact fun hnil => Decimal.print_ne_nil major (List.append_eq_nil_iff.mp hnil).1
  · intro b hb
    rcases List.mem_append.mp hb with hb | hb
    · exact print_noSpace major b hb
    · rcases List.mem_cons.mp hb with rfl | hb
      · decide
      · exact print_noSpace minor b hb

theorem words_fields {fields : List Text}
    (h : ∀ field ∈ fields, field ≠ [] ∧ field ≠ dash ∧ ∀ b ∈ field, ¬ (b = 32 ∨ 9 ≤ b ∧ b ≤ 13)) :
    fields.flatMap (words lib) = fields := by
  induction fields with
  | nil => rfl
  | cons field rest ih =>
    have hfield := h field (List.mem_cons_self ..)
    rw [List.flatMap_cons, words_field lib hfield.1 hfield.2.2, ih fun f hf => h f (List.mem_cons_of_mem _ hf)]
    rfl

/-- The words of a record's line. -/
theorem words_mountLine (record : MountRecord) : words lib (mountLine record) =
    [Decimal.print record.mountId, Decimal.print record.parentId,
      Decimal.print record.major ++ 58 :: Decimal.print record.minor] ++
    (pieces record.root ++ pieces record.target).map mangle ++ record.options :: record.optional ++
    dash :: ((pieces record.filesystem ++ pieces record.source).map mangle ++ words lib record.superOptions) := by
  have hnewline : lib.asciiIsSpace 10 = true := (lib.asciiIsSpace_iff 10).mpr (by decide)
  have hline : words lib (mountLine record) = words lib (Lines.join 32 (mountFields record)) := by
    rw [mountLine, words, tokens_append _ _ hnewline, tokens_nil, List.append_nil]
    rfl
  have hdash : words lib dash = [dash] := words_field lib (by decide +kernel) (by decide +kernel)
  have hoptions := words_fields lib record.fields
  rw [List.flatMap_cons] at hoptions
  rw [hline, words_join, mountFields]
  simp only [List.flatMap_append, List.flatMap_cons, List.flatMap_nil, List.append_nil, hdash, words_device, words_mangle,
    words_field lib (Decimal.print_ne_nil _) (print_noSpace _), List.map_append, List.append_assoc]
  simp only [List.cons_append, List.nil_append]
  rw [← List.append_assoc (words lib record.options), hoptions]
  rfl

/-! ### Decoding -/

theorem decodeLoop_plain (size : Nat) {b : UInt8} (hb : b ≠ 92) (rest : Text) (output : Nat) :
    decodeLoop size (b :: rest) output =
      if size ≤ output + 1 then none else (decodeLoop size rest (output + 1)).map (b :: ·) := by
  rw [decodeLoop.eq_def]
  split
  · rename_i heq
    cases heq
  · rename_i heq
    cases heq
    exact absurd rfl hb
  · rename_i heq
    cases heq
    rw [if_neg hb]

theorem decodeLoop_mangleByte (size : Nat) (b : UInt8) (rest : Text) (output : Nat) :
    decodeLoop size (mangleByte b ++ rest) output =
      if size ≤ output + 1 then none else (decodeLoop size rest (output + 1)).map (b :: ·) := by
  by_cases hescaped : b = 32 ∨ b = 9 ∨ b = 10 ∨ b = 92
  · rcases hescaped with rfl | rfl | rfl | rfl <;> rfl
  · simp only [not_or] at hescaped
    obtain ⟨h32, h9, h10, h92⟩ := hescaped
    rw [mangleByte, if_neg h32, if_neg h9, if_neg h10, if_neg h92]
    exact decodeLoop_plain size h92 rest output

/-- A text that the parser takes for one word, and no less. -/
def Word (t : Text) : Prop := t ≠ [] ∧ ∀ b ∈ t, cuts b = false

instance (t : Text) : Decidable (Word t) := inferInstanceAs (Decidable (t ≠ [] ∧ ∀ b ∈ t, cuts b = false))

theorem pieces_word {t : Text} (h : Word t) : pieces t = [t] := tokens_word h.2 h.1

theorem mem_pieces {t piece : Text} (h : piece ∈ pieces t) : Word piece ∧ ∀ b ∈ piece, b ∈ t :=
  ⟨⟨(mem_tokens h).1, fun b hb => ((mem_tokens h).2 b hb).2⟩, fun b hb => ((mem_tokens h).2 b hb).1⟩

theorem head_pieces {t : Text} {b : UInt8} (h : t.head? = some b) (hb : cuts b = false) :
    ∃ first rest, pieces t = first :: rest ∧ first.head? = some b := by
  cases t with
  | nil => cases h
  | cons c t =>
    cases h
    rw [pieces, tokens_eq, List.dropWhile_cons_of_neg (by rw [hb]; decide), if_neg (List.cons_ne_nil _ _),
      List.takeWhile_cons_of_pos (by rw [hb]; rfl)]
    exact ⟨_, _, rfl, rfl⟩

/-- A byte before a text that is decoded where it fits. -/
theorem decoded_cons (size output : Nat) (b : UInt8) (s : Text) :
    (if size ≤ output + 1 then none
      else (if s = [] ∨ output + 1 + s.length < size then some s else none).map (b :: ·)) =
      if b :: s = [] ∨ output + (b :: s).length < size then some (b :: s) else none := by
  rw [List.length_cons]
  by_cases hfits : output + (s.length + 1) < size
  · rw [if_neg (by omega), if_pos (Or.inr (by omega)), if_pos (Or.inr hfits)]
    rfl
  · rw [if_neg fun h : b :: s = [] ∨ output + (s.length + 1) < size => h.elim (List.cons_ne_nil b s) hfits]
    split
    next => rfl
    next hroom =>
      have hne : s ≠ [] := by
        rintro rfl
        rw [List.length_nil] at hfits
        omega
      rw [if_neg fun h : s = [] ∨ output + 1 + s.length < size => h.elim hne fun h => hfits (by omega)]
      rfl

/-- What the kernel writes is decoded to what it had, where that fits. -/
theorem decodeLoop_mangle (size : Nat) (t : Text) (output : Nat) : decodeLoop size (mangle t) output =
    if t = [] ∨ output + t.length < size then some t else none := by
  induction t generalizing output with
  | nil => rfl
  | cons b t ih =>
    rw [mangle, List.flatMap_cons, decodeLoop_mangleByte, ← mangle, ih]
    exact decoded_cons size output b t

theorem decodeMountField_eq_some {n : Nat} {t : Text} {field : Chars n} : decodeMountField n t = some field ↔
    n ≠ 0 ∧ ∃ decoded, decodeLoop n t 0 = some decoded ∧ .ofText decoded = field := by
  rw [decodeMountField]
  split
  next hn => exact iff_of_false nofun fun h => h.1 hn
  next hn => rw [Option.map_eq_some_iff, and_iff_right hn]

theorem decodeMountField_mangle {n : Nat} {t : Text} (hfits : t.length < n) :
    decodeMountField n (mangle t) = some (.ofText t) := by
  refine decodeMountField_eq_some.mpr ⟨by omega, t, ?_, rfl⟩
  rw [decodeLoop_mangle, if_pos (Or.inr (by omega))]

/-- A decoded text is what was written, when it is of the words the parser reads. -/
theorem decodeMountField_eq {n : Nat} {t : Text} (hnul : 0 ∉ t) (hne : t ≠ []) {field : Chars n}
    (h : decodeMountField n (mangle t) = some field) : field.text = t := by
  obtain ⟨-, decoded, hdecoded, rfl⟩ := decodeMountField_eq_some.mp h
  rw [decodeLoop_mangle] at hdecoded
  split at hdecoded
  · rename_i hfits
    cases hdecoded
    exact Chars.ofText_text hnul (Nat.le_sub_one_of_lt (by simpa [hne] using hfits))
  · cases hdecoded

/-- A word decodes to a text that starts as it does, unless with a backslash. -/
theorem decodeMountField_head {n : Nat} {word : Text} {b : UInt8} (hhead : word.head? = some b) (hb : b ≠ 92)
    (hnul : b ≠ 0) {field : Chars n} (h : decodeMountField n word = some field) : field.text.head? = some b := by
  obtain ⟨-, decoded, hdecoded, rfl⟩ := decodeMountField_eq_some.mp h
  cases word with
  | nil => cases hhead
  | cons c rest =>
    cases hhead
    rw [decodeLoop_plain n hb] at hdecoded
    split at hdecoded
    · cases hdecoded
    · rename_i hn
      obtain ⟨more, -, rfl⟩ := Option.map_eq_some_iff.mp hdecoded
      show (((b :: more).takeWhile (· != 0)).take (n - 1)).head? = some b
      rw [List.takeWhile_cons_of_pos (by simpa using hnul)]
      obtain ⟨m, hm⟩ : ∃ m, n - 1 = m + 1 := ⟨n - 2, by omega⟩
      rw [hm]
      rfl

theorem parseDeviceNumber_print {major minor : Nat} (hmajor : major ≤ uintMax) (hminor : minor ≤ uintMax) :
    parseDeviceNumber lib (Decimal.print major ++ 58 :: Decimal.print minor) = some (major, minor) := by
  have hmax : uintMax ≤ uint64Max := by decide
  have hend := lib.parseU64Token_print minor [] (hminor.trans hmax) (Or.inl rfl)
  rw [List.append_nil] at hend
  rw [parseDeviceNumber, lib.parseU64Token_print major _ (hmajor.trans hmax) (Or.inr rfl)]
  simp only [hend]
  exact if_neg (by omega)

theorem ofTail_eq_some {deviceNumber target : Text} {rest : List Text} {entry : LsmMountInfoEntry} :
    ofTail lib deviceNumber target rest = some entry ↔
      ∃ filesystem source options, rest = [filesystem, source, options] ∧
        parseDeviceNumber lib deviceNumber = some (entry.majorNumber, entry.minorNumber) ∧
        decodeMountField 512 source = some entry.source ∧ decodeMountField 512 target = some entry.target ∧
        decodeMountField 64 filesystem = some entry.filesystem := by
  constructor
  · intro h
    rw [ofTail.eq_def] at h
    split at h
    · rename_i filesystem source options
      simp only [Option.bind_eq_bind, Option.bind_eq_some_iff] at h
      obtain ⟨⟨majorNumber, minorNumber⟩, hdevice, source', hsource, target', htarget, filesystem', hfilesystem, h⟩ := h
      cases h
      exact ⟨filesystem, source, options, rfl, hdevice, hsource, htarget, hfilesystem⟩
    · cases h
  · intro ⟨filesystem, source, options, hrest, hdevice, hsource, htarget, hfilesystem⟩
    subst hrest
    simp only [ofTail, hdevice, hsource, htarget, hfilesystem, Option.bind_eq_bind, Option.bind_some]
    rfl

/-! ### Which records are recovered -/

/-- The words between the device number and the dash. -/
def front (record : MountRecord) : List Text :=
  (pieces record.root ++ pieces record.target).map mangle ++ record.options :: record.optional

/-- The words behind the dash. -/
def back (record : MountRecord) : List Text :=
  (pieces record.filesystem ++ pieces record.source).map mangle ++ words lib record.superOptions

theorem parseMountLine_record (record : MountRecord) {root target options : Text} {more : List Text}
    (hfront : front record = root :: target :: options :: more) :
    parseMountLine lib (mountLine record) =
      if root.head? = some 47 ∧ target.head? = some 47 then
        ((more ++ dash :: back lib record).dropWhile (· != dash)).tail?.bind
          (ofTail lib (Decimal.print record.major ++ 58 :: Decimal.print record.minor) target)
      else none := by
  have hwords : words lib (mountLine record) =
      Decimal.print record.mountId :: Decimal.print record.parentId ::
        (Decimal.print record.major ++ 58 :: Decimal.print record.minor) :: root :: target :: options ::
          (more ++ dash :: back lib record) := by
    rw [words_mountLine, List.append_assoc _ (List.map _ _), ← front, hfront]
    rfl
  rw [parseMountLine_words, hwords, ofWords, lib.parseU64_print _ record.ids.1, lib.parseU64_print _ record.ids.2]
  simp only [Option.bind_eq_bind, Option.bind_some]
  split
  · rename_i hslash
    simp only [guard, if_pos hslash]
    rfl
  · rename_i hslash
    simp only [guard, if_neg hslash]
    rfl

/-- The parser accepts the line and gives what the kernel had. -/
def Recovered (record : MountRecord) : Prop :=
  ∃ entry, parseMountLine lib (mountLine record) = some entry ∧
    entry.majorNumber = record.major ∧ entry.minorNumber = record.minor ∧
    entry.source.text = record.source ∧ entry.target.text = record.target ∧ entry.filesystem.text = record.filesystem

/-- The words of a record are where the parser looks for them. The root is not part of the
entry, so it may fall apart if the target happens to be its second piece. -/
structure InPlace (record : MountRecord) : Prop where
  root : ∃ first rest, pieces record.root = first :: rest ∧
    (rest = [] ∨ rest.head? = some record.target ∧ dash ∉ rest.drop 2)
  target : Word record.target
  filesystem : Word record.filesystem
  source : Word record.source
  superOptions : (words lib record.superOptions).length = 1

theorem mangle_head {t : Text} (h : t.head? = some 47) : (mangle t).head? = some 47 := by
  cases t with
  | nil => cases h
  | cons b t =>
    cases h
    rfl

theorem mangle_eq_dash {t : Text} (h : mangle t = dash) : t = dash := by
  have hdecoded := decodeLoop_mangle (t.length + 2) t 0
  rw [h, if_pos (Or.inr (by omega))] at hdecoded
  have hdash := decodeLoop_mangle (t.length + 2) dash 0
  rw [if_pos (Or.inr (show 0 + dash.length < t.length + 2 by rw [show dash.length = 1 from rfl]; omega))] at hdash
  exact Option.some.inj (hdecoded.symm.trans hdash)

theorem dash_notMem_map {texts : List Text} (h : dash ∉ texts) : dash ∉ texts.map mangle := by
  intro hmem
  obtain ⟨t, ht, hmangle⟩ := List.mem_map.mp hmem
  exact h (mangle_eq_dash hmangle ▸ ht)

theorem dash_notMem_options (record : MountRecord) : dash ∉ record.options :: record.optional :=
  fun hmem => (record.fields dash hmem).2.1 rfl

/-- The fields in place: the root, the target, and the words up to the dash. -/
theorem InPlace.front {record : MountRecord} (h : InPlace lib record) :
    ∃ first options more, Mounts.front record = mangle first :: mangle record.target :: options :: more ∧
      first.head? = some 47 ∧ dash ∉ more := by
  obtain ⟨first, rest, hroot, hrest⟩ := h.root
  obtain ⟨first', rest', hroot', hslash⟩ := head_pieces record.absolute.1 (by decide)
  rw [hroot] at hroot'
  cases hroot'
  have hoptions := dash_notMem_options record
  rcases hrest with rfl | ⟨htarget, hdash⟩
  · refine ⟨first, record.options, record.optional, ?_, hslash, fun hmem => hoptions (List.mem_cons_of_mem _ hmem)⟩
    rw [Mounts.front, hroot, pieces_word h.target]
    rfl
  · cases rest with
    | nil => cases htarget
    | cons target rest =>
      cases htarget
      have hnot : dash ∉ mangle record.target :: record.options :: record.optional := by
        intro hmem
        rcases List.mem_cons.mp hmem with heq | hmem
        · have hhead := mangle_head record.absolute.2
          rw [← heq] at hhead
          exact absurd hhead (by decide)
        · exact hoptions hmem
      have hfront : Mounts.front record =
          mangle first :: mangle record.target ::
            (rest.map mangle ++ mangle record.target :: record.options :: record.optional) := by
        rw [Mounts.front, hroot, pieces_word h.target]
        simp
      cases rest with
      | nil => exact ⟨first, _, _, hfront, hslash, fun hmem => hoptions hmem⟩
      | cons third rest =>
        refine ⟨first, _, _, hfront, hslash, ?_⟩
        intro hmem
        rcases List.mem_append.mp hmem with hmem | hmem
        · exact dash_notMem_map hdash hmem
        · exact hnot hmem

theorem dropWhile_dash {more : List Text} (h : dash ∉ more) (back : List Text) :
    (more ++ dash :: back).dropWhile (· != dash) = dash :: back := by
  have hne : ∀ t ∈ more, (t != dash) = true := fun t ht => bne_iff_ne.mpr fun heq => h (heq ▸ ht)
  rw [List.dropWhile_append_of_pos hne]
  exact List.dropWhile_cons_of_neg (by decide)

theorem InPlace.recovered {record : MountRecord} (h : InPlace lib record) (htarget : record.target.length < 512)
    (hsource : record.source.length < 512) (hfilesystem : record.filesystem.length < 64) : Recovered lib record := by
  obtain ⟨first, options, more, hfront, hslash, hdash⟩ := h.front
  obtain ⟨word, hword⟩ := List.length_eq_one_iff.mp h.superOptions
  have hnul := record.nulFree
  have hback : back lib record = [mangle record.filesystem, mangle record.source, word] := by
    rw [back, pieces_word h.filesystem, pieces_word h.source, hword]
    rfl
  refine ⟨⟨record.major, record.minor, .ofText record.source, .ofText record.target, .ofText record.filesystem⟩, ?_,
    rfl, rfl, ?_, ?_, ?_⟩
  · rw [parseMountLine_record lib record hfront, if_pos ⟨mangle_head hslash, mangle_head record.absolute.2⟩,
      dropWhile_dash hdash, List.tail?_cons, Option.bind_some, ofTail_eq_some]
    exact ⟨_, _, _, hback, parseDeviceNumber_print lib record.device.1 record.device.2, decodeMountField_mangle hsource,
      decodeMountField_mangle htarget, decodeMountField_mangle hfilesystem⟩
  · exact Chars.ofText_text (hnul _ (by simp)) (Nat.le_sub_one_of_lt hsource)
  · exact Chars.ofText_text (hnul _ (by simp)) (Nat.le_sub_one_of_lt htarget)
  · exact Chars.ofText_text (hnul _ (by simp)) (Nat.le_sub_one_of_lt hfilesystem)

/-! ### Nothing else is recovered -/

/-- A word that is decoded to a text of the record is the whole text. -/
theorem word_of_decoded {n : Nat} {t t' piece : Text} (hpiece : piece ∈ pieces t) (hnul : 0 ∉ t) {field : Chars n}
    (hdecoded : decodeMountField n (mangle piece) = some field) (hsame : field.text = t') : piece = t' ∧ Word t' := by
  obtain ⟨hword, hsub⟩ := mem_pieces hpiece
  rw [decodeMountField_eq (fun hmem => hnul (hsub 0 hmem)) hword.1 hdecoded] at hsame
  exact ⟨hsame, hsame ▸ hword⟩

/-- A word of the super options is decoded to no text without words. -/
theorem pieces_of_options {n : Nat} {t word : Text} (hword : word.head? = some 114) {field : Chars n}
    (hdecoded : decodeMountField n word = some field) (hsame : field.text = t) : pieces t ≠ [] := by
  have hhead := decodeMountField_head hword (by decide) (by decide) hdecoded
  rw [hsame] at hhead
  obtain ⟨first, rest, hpieces, -⟩ := head_pieces hhead (by decide)
  rw [hpieces]
  exact List.cons_ne_nil _ _

theorem words_superOptions (record : MountRecord) :
    ∃ word rest, words lib record.superOptions = word :: rest ∧ word.head? = some 114 := by
  have hmode := record.readMode
  cases htext : record.superOptions with
  | nil =>
    rw [htext] at hmode
    cases hmode
  | cons b t =>
    rw [htext] at hmode
    cases hmode
    have hspace : lib.asciiIsSpace 114 = false := space_eq_false lib (by decide)
    rw [words, tokens_eq, List.dropWhile_cons_of_neg (by rw [hspace]; decide), if_neg (List.cons_ne_nil _ _),
      List.takeWhile_cons_of_pos (by rw [hspace]; rfl)]
    exact ⟨_, _, rfl, rfl⟩

/-- Three words behind the dash that are decoded to the texts of the record are in place. -/
theorem back_inPlace {record : MountRecord} {filesystem source options : Text}
    (hback : back lib record = [filesystem, source, options]) {field : Chars 64} {field' : Chars 512}
    (hfilesystem : decodeMountField 64 filesystem = some field) (hfield : field.text = record.filesystem)
    (hsource : decodeMountField 512 source = some field') (hfield' : field'.text = record.source) :
    Word record.filesystem ∧ Word record.source ∧ (words lib record.superOptions).length = 1 := by
  obtain ⟨word, rest, hsuper, hmode⟩ := words_superOptions lib record
  have hnul := record.nulFree
  rw [back, hsuper] at hback
  cases hpieces : pieces record.filesystem with
  | nil =>
    rw [hpieces, List.nil_append] at hback
    cases hpieces' : pieces record.source with
    | nil =>
      rw [hpieces'] at hback
      cases hback
      exact absurd hpieces (pieces_of_options hmode hfilesystem hfield)
    | cons piece more =>
      rw [hpieces'] at hback
      obtain ⟨hhead, -⟩ := List.cons.inj hback
      rw [← hhead] at hfilesystem
      have hword := (word_of_decoded (hpieces' ▸ List.mem_cons_self ..) (hnul _ (by simp)) hfilesystem hfield).2
      rw [pieces_word hword] at hpieces
      cases hpieces
  | cons piece more =>
    rw [hpieces] at hback
    obtain ⟨hhead, htail⟩ := List.cons.inj hback
    rw [← hhead] at hfilesystem
    have hword := (word_of_decoded (hpieces ▸ List.mem_cons_self ..) (hnul _ (by simp)) hfilesystem hfield).2
    rw [pieces_word hword] at hpieces
    cases hpieces
    cases hpieces' : pieces record.source with
    | nil =>
      rw [hpieces'] at htail
      cases htail
      exact absurd hpieces' (pieces_of_options hmode hsource hfield')
    | cons piece' more' =>
      rw [hpieces'] at htail
      obtain ⟨hhead', htail'⟩ := List.cons.inj htail
      rw [← hhead'] at hsource
      have hword' := (word_of_decoded (hpieces' ▸ List.mem_cons_self ..) (hnul _ (by simp)) hsource hfield').2
      rw [pieces_word hword'] at hpieces'
      cases hpieces'
      cases htail'
      exact ⟨hword, hword', congrArg List.length hsuper⟩

/-- A dash in front of the dash leaves too many words behind it. -/
theorem dash_notMem_more {record : MountRecord} {root target third : Text} {more : List Text}
    (hfront : front record = root :: target :: third :: more) {filesystem source options : Text}
    (hrest : ((more ++ dash :: back lib record).dropWhile (· != dash)).tail? = some [filesystem, source, options])
    {field' : Chars 512} (hsource : decodeMountField 512 source = some field') (hfield' : field'.text = record.source) :
    dash ∉ more := by
  intro hmem
  obtain ⟨before, after, rfl, hbefore⟩ := List.eq_append_cons_of_mem hmem
  rw [List.append_assoc, List.cons_append, dropWhile_dash hbefore, List.tail?_cons] at hrest
  have hwords := Option.some.inj hrest
  have hback : 1 ≤ (back lib record).length ∧ (pieces record.source).length + 1 ≤ (back lib record).length := by
    obtain ⟨word, rest, hsuper, -⟩ := words_superOptions lib record
    rw [back, hsuper, List.length_append, List.length_map, List.length_append, List.length_cons]
    omega
  cases after with
  | nil =>
    -- The last word in front of the dash would be a dash, and it is a field of options.
    have hlast : (front record).getLast? = some dash := by
      rw [hfront, ← List.cons_append, ← List.cons_append, ← List.cons_append, List.getLast?_concat]
    rw [front, List.getLast?_append_of_ne_nil _ (List.cons_ne_nil _ _)] at hlast
    exact dash_notMem_options record (List.mem_of_getLast? hlast)
  | cons b after =>
    have hlength := congrArg List.length hwords
    simp only [List.length_append, List.length_cons, List.length_nil] at hlength
    have hafter : after = [] := List.length_eq_zero_iff.mp (by omega)
    subst hafter
    have hsame : dash = source := (List.cons.inj (List.cons.inj hwords).2).1
    rw [← hsame] at hsource
    have htext := decodeMountField_eq (t := dash) (by decide) (by decide) hsource
    rw [htext] at hfield'
    rw [← hfield', pieces_word (show Word dash by decide +kernel)] at hback
    simp only [List.length_singleton, List.length_nil] at hback hlength
    omega

/-- Where the parser finds the target: in the second piece of the root, if it has one. -/
theorem front_eq (record : MountRecord) :
    ∃ first rest second third more, pieces record.root = first :: rest ∧
      front record = mangle first :: mangle second :: third :: more ∧
      (second ∈ pieces record.target ∧ rest = [] ∨
        second ∈ pieces record.root ∧ rest.head? = some second ∧ (dash ∉ more → dash ∉ rest.drop 2)) := by
  obtain ⟨first, rest, hroot, -⟩ := head_pieces record.absolute.1 (by decide)
  obtain ⟨target, targets, htarget, -⟩ := head_pieces record.absolute.2 (by decide)
  cases rest with
  | nil =>
    obtain ⟨third, more, hmore⟩ :
        ∃ third more, targets.map mangle ++ record.options :: record.optional = third :: more :=
      List.exists_cons_of_ne_nil (by simp)
    refine ⟨first, [], target, third, more, hroot, ?_, Or.inl ⟨htarget ▸ List.mem_cons_self .., rfl⟩⟩
    rw [front, hroot, htarget, ← hmore]
    rfl
  | cons second rest =>
    have hfront : front record = mangle first :: mangle second ::
        (rest.map mangle ++ ((target :: targets).map mangle ++ record.options :: record.optional)) := by
      rw [front, hroot, htarget]
      simp
    have hsecond : second ∈ pieces record.root := hroot ▸ List.mem_cons_of_mem _ (List.mem_cons_self ..)
    cases rest with
    | nil => exact ⟨first, [second], second, _, _, hroot, hfront, Or.inr ⟨hsecond, rfl, fun _ => List.not_mem_nil⟩⟩
    | cons third rest =>
      refine ⟨first, second :: third :: rest, second, _, _, hroot, hfront, Or.inr ⟨hsecond, rfl, ?_⟩⟩
      intro hmore hmem
      exact hmore (List.mem_append_left _ (List.mem_map.mpr ⟨dash, hmem, rfl⟩))

/-- The fields of a record that is recovered are in place. -/
theorem InPlace.of_recovered {record : MountRecord} (h : Recovered lib record) : InPlace lib record := by
  obtain ⟨entry, hparse, -, -, hsource, htarget, hfilesystem⟩ := h
  obtain ⟨first, rest, second, third, more, hroot, hfront, hplace⟩ := front_eq record
  rw [parseMountLine_record lib record hfront] at hparse
  split at hparse
  · obtain ⟨behind, hbehind, htail⟩ := Option.bind_eq_some_iff.mp hparse
    obtain ⟨filesystem, source, options, rfl, -, hsource', htarget', hfilesystem'⟩ := (ofTail_eq_some lib).mp htail
    have hdash := dash_notMem_more lib hfront hbehind hsource' hsource
    rw [dropWhile_dash hdash, List.tail?_cons] at hbehind
    obtain ⟨hwordFilesystem, hwordSource, hsuper⟩ :=
      back_inPlace lib (Option.some.inj hbehind) hfilesystem' hfilesystem hsource' hsource
    rcases hplace with ⟨hsecond, hrest⟩ | ⟨hsecond, hrest, hmore⟩
    · have hword := (word_of_decoded hsecond (record.nulFree _ (by simp)) htarget' htarget).2
      exact ⟨⟨first, rest, hroot, Or.inl hrest⟩, hword, hwordFilesystem, hwordSource, hsuper⟩
    · obtain ⟨rfl, hword⟩ := word_of_decoded hsecond (record.nulFree _ (by simp)) htarget' htarget
      exact ⟨⟨first, rest, hroot, Or.inr ⟨hrest, hmore hdash⟩⟩, hword, hwordFilesystem, hwordSource, hsuper⟩
  · cases hparse

/-- **A record that fits is recovered exactly when its words are in place.** -/
theorem parse_mount_line_iff {record : MountRecord} (htarget : record.target.length < 512)
    (hsource : record.source.length < 512) (hfilesystem : record.filesystem.length < 64) :
    Recovered lib record ↔ InPlace lib record :=
  ⟨InPlace.of_recovered lib, fun h => h.recovered lib htarget hsource hfilesystem⟩

/-- A disk's file system, mounted at the target from the source. -/
def diskRecord (target source : Text) (absolute : target.head? = some 47) (nulFree : 0 ∉ target ∧ 0 ∉ source) :
    MountRecord where
  mountId := 29
  parentId := 1
  major := 8
  minor := 2
  root := ascii "/"
  target := target
  options := ascii "rw,relatime"
  optional := [ascii "shared:1"]
  filesystem := ascii "ext4"
  source := source
  superOptions := ascii "rw"
  ids := by decide
  device := by decide
  absolute := ⟨rfl, absolute⟩
  fields := by decide +kernel
  readMode := rfl
  nulFree := by
    intro t ht
    simp only [List.mem_cons, List.not_mem_nil, or_false] at ht
    rcases ht with rfl | rfl | rfl | rfl
    · decide
    · exact nulFree.1
    · decide
    · exact nulFree.2

theorem parse_mount_line_iff_disk :
    Recovered .documented (diskRecord (ascii "/mnt/my disk") (ascii "/dev/sda2") rfl (by decide)) :=
  (parse_mount_line_iff .documented (by decide) (by decide) (by decide)).mpr
    ⟨⟨_, _, rfl, Or.inl rfl⟩, by decide +kernel, by decide +kernel, by decide +kernel, by decide +kernel⟩

/-- A mount point with a vertical tab is cut there; a mount without a source is refused. -/
theorem unrecovered_records :
    (parseMountLine .documented
        (mountLine (diskRecord (ascii "/mnt/a" ++ [11] ++ ascii "b") (ascii "/dev/sda2") rfl (by decide)))).map
      (·.target.text) = some (ascii "/mnt/a") ∧
    ¬ Recovered .documented (diskRecord (ascii "/mnt/a" ++ [11] ++ ascii "b") (ascii "/dev/sda2") rfl (by decide)) ∧
    parseMountLine .documented (mountLine (diskRecord (ascii "/mnt/a") [] rfl (by decide))) = none ∧
    ¬ Recovered .documented (diskRecord (ascii "/mnt/a") [] rfl (by decide)) := by
  refine ⟨by decide, ?_, by decide, ?_⟩
  · exact fun h => absurd (InPlace.of_recovered _ h).target.2 (by decide)
  · exact fun h => (InPlace.of_recovered _ h).source.1 rfl

end SystemMonitor.Mounts
