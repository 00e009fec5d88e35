import SystemMonitor.Procfs.Library

/-! The identity of a process in its stat record.

Two readers take the start time out of `/proc/PID/stat`: one tokenises the record behind
its last parenthesis at single spaces, the other walks it by white space. The command
between the parentheses is any text.

`stat_parsers_agree`: on a record in the kernel's format both find the start time, the
first finds the command as well, and the two identity checks answer the same. -/
namespace SystemMonitor.Procfs
open Lib CStrings

def intMin : Int := -2 ^ 31
def intMax : Int := 2 ^ 31 - 1

/-- `state_name`. -/
def stateName (state : UInt8) : Text :=
  if state = 82 then ascii "Running"
  else if state = 83 then ascii "Sleeping"
  else if state = 68 then ascii "Disk sleep"
  else if state = 90 then ascii "Zombie"
  else if state = 84 ∨ state = 116 then ascii "Stopped"
  else if state = 73 then ascii "Idle"
  else if state = 88 ∨ state = 120 then ascii "Dead"
  else if state = 87 then ascii "Paging"
  else ascii "Unknown"

/-- The fields of the process row that the record fills. -/
structure StatFields where
  name : Chars 128 := .empty
  state : Text := []
  ppid : Nat := 0
  threads : Nat := 0
  niceValue : Int := 0
  niceValueAvailable : Bool := false
  pageFaults : Nat := 0

structure LinuxProcessStat where
  startTicks : Nat := 0
  cpuTicks : Nat := 0
  niceValue : Int := 0

/-- The local variables of the token loop. -/
structure StatLocals where
  state : UInt8 := 63
  ppid : Nat := 0
  havePpid : Bool := false
  minflt : Nat := 0
  majflt : Nat := 0
  utime : Nat := 0
  stime : Nat := 0
  niceValue : Int := 0
  threads : Nat := 0
  startTicks : Nat := 0
  haveStart : Bool := false

/-- What the two callers of Common's file readers rely on: a file that fits the buffer is
read whole, and the second reader may cut white space off its ends. -/
structure Reader (lib : Library) where
  readTextFileEx : Nat → Text → Option Text
  readTextFile : Nat → Text → Option Text
  ex_eq : ∀ n content, content.length < n → readTextFileEx n content = some content
  trims : ∀ n content, content.length < n → ∃ front text back, readTextFile n content = some text ∧
    content = front ++ text ++ back ∧ (∀ b ∈ front, lib.asciiIsSpace b = true) ∧
    ∀ b ∈ back, lib.asciiIsSpace b = true

/-- The second reader cuts off white space at both ends. -/
def Reader.documented : Reader .documented where
  readTextFileEx n content := if content.length < n then some content else none
  readTextFile n content := if content.length < n then some (trimmed Library.documented.asciiIsSpace content) else none
  ex_eq _ _ h := if_pos h
  trims n content h := by
    obtain ⟨back, hsplit, hback⟩ := trimmed_split Library.documented.asciiIsSpace content
    exact ⟨_, _, back, if_pos h, hsplit, fun b hb => List.mem_takeWhile_imp hb, hback⟩

section
variable (lib : Library) (arith : Arithmetic) (reader : Reader lib)

/-- One turn of the `switch`; `none`: the numeral is malformed. -/
def takeField (field : Nat) (token : Text) (s : StatLocals) : Option StatLocals :=
  match field with
  | 3 => some { s with state := token.headD 0 }
  | 4 => (lib.parseU64 token).map fun value => { s with ppid := value, havePpid := true }
  | 10 => (lib.parseU64 token).map fun value => { s with minflt := value }
  | 12 => (lib.parseU64 token).map fun value => { s with majflt := value }
  | 14 => (lib.parseU64 token).map fun value => { s with utime := value }
  | 15 => (lib.parseU64 token).map fun value => { s with stime := value }
  | 19 => (lib.parseI64Range intMin intMax token).map fun value => { s with niceValue := value }
  | 20 => (lib.parseU64 token).map fun value => { s with threads := if value ≤ uintMax then value else uintMax }
  | 22 => (lib.parseU64 token).map fun value => { s with startTicks := value, haveStart := true }
  | _ => some s

def takeFields : Nat → StatLocals → List Text → Option StatLocals
  | _, s, [] => some s
  | field, s, token :: rest =>
    (takeField lib field token s).bind fun s => if 22 ≤ field then some s else takeFields (field + 1) s rest

/-- `read_process_stat` on the text that was read. What it has written when it fails is not used. -/
def readProcessStat (text : Text) : Option (StatFields × LinuxProcessStat) :=
  match cutLast 41 text with
  | none => none
  | some (before, after) =>
    -- the first parenthesis has to stand before the last one
    if 40 ∉ before then none
    else
      match takeFields lib 3 {} (tokens (· == 32) (after.drop 1)) with
      | none => none
      | some s =>
        if !s.havePpid || !s.haveStart then none
        else
          some
            ({ name := .ofText ((before.dropWhile (· != 40)).drop 1)
               state := stateName s.state
               ppid := s.ppid
               threads := s.threads
               niceValue := s.niceValue
               niceValueAvailable := true
               pageFaults := arith.u64AddSaturating s.minflt s.majflt },
             { startTicks := s.startTicks
               cpuTicks := arith.u64AddSaturating s.utime s.stime
               niceValue := s.niceValue })

/-- The fields from the cursor on, counted down to field 22. -/
def startTicksFrom : Nat → Text → Option Nat
  | 0, _ => none
  | left + 1, cursor =>
    let start := cursor.dropWhile lib.asciiIsSpace
    if start = [] then none
    else
      let after := start.dropWhile fun b => !lib.asciiIsSpace b
      if left ≠ 0 then startTicksFrom left after
      else
        match lib.parseU64Token start with
        | none => none
        | some (value, number) => if number ≠ after ∨ value = 0 then none else some value

def parseStartTicks (statText : Text) : Option Nat :=
  match cutLast 41 statText with
  | some (_, 32 :: cursor) => startTicksFrom lib 20 cursor
  | _ => none

/-- `native_pid`, which both files have. -/
def nativePid (id : Nat) : Option Nat := if id = 0 ∨ (intMax : Int) < id then none else some id

/-- `procfs`: the content of the stat file of a PID. -/
def lsmProcessIdentityMatches (procfs : Nat → Option Text) (processId instanceId : Nat) : Bool :=
  match nativePid processId with
  | none => false
  | some pid =>
    if instanceId = 0 then false
    else
      match ((procfs pid).bind (reader.readTextFileEx 8192)).bind (readProcessStat lib arith) with
      | none => false
      | some (_, nativeStat) => nativeStat.startTicks == instanceId

def lsmProcessInspectionIdentityMatches (procfs : Nat → Option Text) (processId expectedInstanceId : Nat) : Bool :=
  match nativePid processId with
  | none => false
  | some pid =>
    if expectedInstanceId = 0 then false
    else
      match ((procfs pid).bind (reader.readTextFile 4096)).bind (parseStartTicks lib) with
      | none => false
      | some current => current == expectedInstanceId

end

/-! ### The record in the kernel's format -/

structure StatRecord where
  pid : Nat
  comm : Text
  state : UInt8
  ppid : Nat
  minflt : Nat
  majflt : Nat
  utime : Nat
  stime : Nat
  nice : Int
  threads : Nat
  starttime : Nat
  /-- The fields that neither reader looks at. -/
  other : Nat → Int
  nulFree : 0 ∉ comm
  letter : 65 ≤ state ∧ state ≤ 90 ∨ 97 ≤ state ∧ state ≤ 122
  ppid_le : ppid ≤ uint64Max
  minflt_le : minflt ≤ uint64Max
  majflt_le : majflt ≤ uint64Max
  utime_le : utime ≤ uint64Max
  stime_le : stime ≤ uint64Max
  nice_range : intMin ≤ nice ∧ nice ≤ intMax
  threads_le : threads ≤ uint64Max
  starttime_pos : 0 < starttime
  starttime_le : starttime ≤ uint64Max

def StatRecord.fieldText (r : StatRecord) (field : Nat) : Text :=
  match field with
  | 3 => [r.state]
  | 4 => Decimal.print r.ppid
  | 10 => Decimal.print r.minflt
  | 12 => Decimal.print r.majflt
  | 14 => Decimal.print r.utime
  | 15 => Decimal.print r.stime
  | 19 => Decimal.printInt r.nice
  | 20 => Decimal.print r.threads
  | 22 => Decimal.print r.starttime
  | field => Decimal.printInt (r.other field)

/-- `pid (comm) state ppid …`, fifty-two fields and a newline. -/
def StatRecord.text (r : StatRecord) : Text :=
  Decimal.print r.pid ++ 32 :: 40 :: r.comm ++ 41 :: ((List.range' 3 50).flatMap fun field => 32 :: r.fieldText field) ++ [10]

/-! ### The fields behind the command -/

theorem parseU64_print (lib : Library) {n : Nat} (h : n ≤ uint64Max) : lib.parseU64 (Decimal.print n) = some n := by
  rw [lib.parseU64_eq, parse_print_u64 n h]

theorem StatRecord.not_space_state (r : StatRecord) (lib : Library) :
    lib.asciiIsSpace r.state = false ∧ r.state ≠ 41 := by
  have hlow : 65 ≤ r.state := by
    rcases r.letter with h | h
    · exact h.1
    · exact UInt8.le_trans (by decide) h.1
  rw [UInt8.le_iff_toNat_le] at hlow
  refine ⟨?_, fun h => ?_⟩
  · cases hspace : lib.asciiIsSpace r.state with
    | false => rfl
    | true =>
      rw [lib.asciiIsSpace_iff] at hspace
      rcases hspace with h | h
      · rw [h] at hlow
        exact absurd hlow (by decide)
      · have hhigh := h.2
        rw [UInt8.le_iff_toNat_le] at hhigh
        have hnat : (65 : UInt8).toNat ≤ (13 : UInt8).toNat := hlow.trans hhigh
        exact absurd hnat (by decide)
  · rw [h] at hlow
    exact absurd hlow (by decide)

/-- A field has bytes, none of them white space or a parenthesis. -/
theorem StatRecord.fieldText_plain (r : StatRecord) (lib : Library) (field : Nat) : r.fieldText field ≠ [] ∧
    ∀ b ∈ r.fieldText field, lib.asciiIsSpace b = false ∧ b ≠ 41 := by
  have hdigit : ∀ b, Decimal.isDigit b = true → lib.asciiIsSpace b = false ∧ b ≠ 41 := by
    intro b hb
    refine ⟨lib.not_space_of_isDigit hb, fun h => ?_⟩
    rw [h] at hb
    exact absurd hb (by decide)
  have hprint : ∀ n, Decimal.print n ≠ [] ∧ ∀ b ∈ Decimal.print n, lib.asciiIsSpace b = false ∧ b ≠ 41 :=
    fun n => ⟨Decimal.print_ne_nil n, fun b hb => hdigit b (Decimal.mem_print hb)⟩
  have hminus : lib.asciiIsSpace 45 = false := by
    cases hspace : lib.asciiIsSpace 45 with
    | false => rfl
    | true =>
      rw [lib.asciiIsSpace_iff] at hspace
      exact absurd hspace (by decide)
  have hprintInt : ∀ n, Decimal.printInt n ≠ [] ∧ ∀ b ∈ Decimal.printInt n, lib.asciiIsSpace b = false ∧ b ≠ 41 := by
    intro n
    refine ⟨?_, fun b hb => ?_⟩
    · cases n with
      | ofNat n => exact Decimal.print_ne_nil n
      | negSucc n => exact List.cons_ne_nil _ _
    · rcases Decimal.mem_printInt hb with rfl | hb
      · exact ⟨hminus, by decide⟩
      · exact hdigit b hb
  unfold StatRecord.fieldText
  split
  · refine ⟨List.cons_ne_nil _ _, fun b hb => ?_⟩
    rw [List.mem_singleton.mp hb]
    exact r.not_space_state lib
  · exact hprint _
  · exact hprint _
  · exact hprint _
  · exact hprint _
  · exact hprint _
  · exact hprintInt _
  · exact hprint _
  · exact hprint _
  · exact hprintInt _

/-- Words, each behind a space. -/
def spaced (words : List Text) : Text := words.flatMap fun word => 32 :: word

theorem tokens_spaced {words : List Text} (hne : ∀ w ∈ words, w ≠ []) (hplain : ∀ w ∈ words, 32 ∉ w) (rest : Text) :
    tokens (· == 32) (spaced words ++ 32 :: rest) = words ++ tokens (· == 32) rest := by
  induction words with
  | nil => exact tokens_cons_sep rfl rest
  | cons w words ih =>
    have hword : ∀ b ∈ w, (b == 32) = false := fun b hb =>
      beq_eq_false_iff_ne.mpr fun heq => hplain w (List.mem_cons_self ..) (heq ▸ hb)
    have hcut : ∀ more : Text, tokens (· == 32) (32 :: (w ++ 32 :: more)) = w :: tokens (· == 32) (32 :: more) := by
      intro more
      have hfirst : tokens (· == 32) (32 :: (w ++ 32 :: more)) = tokens (· == 32) (w ++ 32 :: more) :=
        tokens_cons_sep rfl _
      have hsplit : tokens (· == 32) (w ++ 32 :: more) = tokens (· == 32) w ++ tokens (· == 32) more :=
        tokens_append w more rfl
      have hnext : tokens (· == 32) (32 :: more) = tokens (· == 32) more := tokens_cons_sep rfl more
      rw [hfirst, hsplit, hnext, tokens_word hword (hne w (List.mem_cons_self ..))]
      rfl
    have hrest := ih (fun v hv => hne v (List.mem_cons_of_mem w hv)) fun v hv => hplain v (List.mem_cons_of_mem w hv)
    obtain ⟨more, hmore⟩ : ∃ more, spaced words ++ 32 :: rest = 32 :: more := by
      cases words with
      | nil => exact ⟨rest, rfl⟩
      | cons v words => exact ⟨v ++ (spaced words ++ 32 :: rest), by simp [spaced]⟩
    have htext : spaced (w :: words) ++ 32 :: rest = 32 :: (w ++ (spaced words ++ 32 :: rest)) := by simp [spaced]
    rw [htext, hmore, hcut, ← hmore, hrest, List.cons_append]

theorem startTicksFrom_space (lib : Library) (left : Nat) (cursor : Text) :
    startTicksFrom lib left (32 :: cursor) = startTicksFrom lib left cursor := by
  have hspace : lib.asciiIsSpace 32 = true := (lib.asciiIsSpace_iff 32).mpr (Or.inl rfl)
  cases left with
  | zero => rfl
  | succ left => rw [startTicksFrom, startTicksFrom, List.dropWhile_cons_of_pos hspace]

/-- A word is passed over before field 22. -/
theorem startTicksFrom_word (lib : Library) {left : Nat} (hleft : left ≠ 0) {word : Text} (hne : word ≠ [])
    (hplain : ∀ b ∈ word, lib.asciiIsSpace b = false) (rest : Text) :
    startTicksFrom lib (left + 1) (word ++ 32 :: rest) = startTicksFrom lib left (32 :: rest) := by
  have hspace : lib.asciiIsSpace 32 = true := (lib.asciiIsSpace_iff 32).mpr (Or.inl rfl)
  have hstart : (word ++ 32 :: rest).dropWhile lib.asciiIsSpace = word ++ 32 :: rest := by
    cases word with
    | nil => exact absurd rfl hne
    | cons b word => exact List.dropWhile_cons_of_neg (by rw [hplain b (List.mem_cons_self ..)]; decide)
  have hafter : (word ++ 32 :: rest).dropWhile (fun b => !lib.asciiIsSpace b) = 32 :: rest := by
    rw [List.dropWhile_append_of_pos fun b hb => by rw [hplain b hb]; rfl,
      List.dropWhile_cons_of_neg (by rw [hspace]; decide)]
  rw [startTicksFrom]
  dsimp only
  rw [hstart, hafter, if_neg (by simp), if_pos hleft]

theorem startTicksFrom_words (lib : Library) {words : List Text} (hne : ∀ w ∈ words, w ≠ [])
    (hplain : ∀ w ∈ words, ∀ b ∈ w, lib.asciiIsSpace b = false) (rest : Text) :
    startTicksFrom lib (words.length + 1) (spaced words ++ 32 :: rest) = startTicksFrom lib 1 rest := by
  induction words with
  | nil => exact startTicksFrom_space lib 1 rest
  | cons w words ih =>
    have hrest := ih (fun v hv => hne v (List.mem_cons_of_mem w hv)) fun v hv => hplain v (List.mem_cons_of_mem w hv)
    obtain ⟨more, hmore⟩ : ∃ more, spaced words ++ 32 :: rest = 32 :: more := by
      cases words with
      | nil => exact ⟨rest, rfl⟩
      | cons v words => exact ⟨v ++ (spaced words ++ 32 :: rest), by simp [spaced]⟩
    have htext : spaced (w :: words) ++ 32 :: rest = 32 :: (w ++ (spaced words ++ 32 :: rest)) := by simp [spaced]
    rw [htext, startTicksFrom_space, hmore, List.length_cons,
      startTicksFrom_word lib (Nat.succ_ne_zero _) (hne w (List.mem_cons_self ..)) (hplain w (List.mem_cons_self ..)),
      ← hmore, hrest]

/-- Field 22 is a whole positive numeral. -/
theorem startTicksFrom_numeral (lib : Library) {n : Nat} (hpos : 0 < n) (hle : n ≤ uint64Max) (rest : Text) :
    startTicksFrom lib 1 (Decimal.print n ++ 32 :: rest) = some n := by
  have hspace : lib.asciiIsSpace 32 = true := (lib.asciiIsSpace_iff 32).mpr (Or.inl rfl)
  have hdigit : ∀ b ∈ Decimal.print n, Decimal.isDigit b = true := fun b hb => Decimal.mem_print hb
  have hplain : ∀ b ∈ Decimal.print n, lib.asciiIsSpace b = false := fun b hb => lib.not_space_of_isDigit (hdigit b hb)
  have hstart := dropWhile_print (fun b => lib.not_space_of_isDigit) n (32 :: rest)
  have hafter : (Decimal.print n ++ 32 :: rest).dropWhile (fun b => !lib.asciiIsSpace b) = 32 :: rest := by
    rw [List.dropWhile_append_of_pos fun b hb => by rw [hplain b hb]; rfl,
      List.dropWhile_cons_of_neg (by rw [hspace]; decide)]
  have hnumber := lib.parseU64Token_print hle (show Decimal.isDigit 32 = false by decide) rest
  have hne : Decimal.print n ++ 32 :: rest ≠ [] := by simp
  rw [startTicksFrom]
  dsimp only
  rw [hstart, hafter, if_neg hne, if_neg (by decide), hnumber]
  dsimp only
  refine if_neg fun h => ?_
  rcases h with h | h
  · exact h rfl
  · omega

/-! ### A whole record -/

/-- Fields 3 to 22. -/
def StatRecord.words (r : StatRecord) : List Text := (List.range' 3 20).map r.fieldText

/-- What the token loop has when it has seen field 22. -/
def StatRecord.locals (r : StatRecord) : StatLocals where
  state := r.state
  ppid := r.ppid
  havePpid := true
  minflt := r.minflt
  majflt := r.majflt
  utime := r.utime
  stime := r.stime
  niceValue := r.nice
  threads := if r.threads ≤ uintMax then r.threads else uintMax
  startTicks := r.starttime
  haveStart := true

theorem takeFields_words (lib : Library) (r : StatRecord) (more : List Text) :
    takeFields lib 3 {} (r.words ++ more) = some r.locals := by
  have hnice : lib.parseI64Range intMin intMax (Decimal.printInt r.nice) = some r.nice := by
    rw [lib.parseI64Range_eq, Decimal.parseInt_printInt]
    exact Option.filter_some_pos (decide_eq_true r.nice_range)
  have hwords : r.words = [r.fieldText 3, r.fieldText 4, r.fieldText 5, r.fieldText 6, r.fieldText 7, r.fieldText 8,
    r.fieldText 9, r.fieldText 10, r.fieldText 11, r.fieldText 12, r.fieldText 13, r.fieldText 14, r.fieldText 15,
    r.fieldText 16, r.fieldText 17, r.fieldText 18, r.fieldText 19, r.fieldText 20, r.fieldText 21,
    r.fieldText 22] := rfl
  rw [hwords]
  simp [takeFields, takeField, StatRecord.fieldText, parseU64_print lib r.ppid_le, parseU64_print lib r.minflt_le,
    parseU64_print lib r.majflt_le, parseU64_print lib r.utime_le, parseU64_print lib r.stime_le, hnice,
    parseU64_print lib r.threads_le, parseU64_print lib r.starttime_le, StatRecord.locals]

/-- The record up to the end of field 22, and what follows. -/
structure StatRecord.Reads (r : StatRecord) (lib : Library) (text : Text) : Prop where
  split : ∃ more, text = Decimal.print r.pid ++ 32 :: 40 :: r.comm ++ 41 :: (spaced r.words ++ 32 :: more) ∧ 41 ∉ more

theorem StatRecord.words_plain (r : StatRecord) (lib : Library) {word : Text} (h : word ∈ r.words) :
    word ≠ [] ∧ ∀ b ∈ word, lib.asciiIsSpace b = false ∧ b ≠ 41 := by
  obtain ⟨field, -, rfl⟩ := List.mem_map.mp h
  exact r.fieldText_plain lib field

theorem StatRecord.not_closing (r : StatRecord) (lib : Library) {more : Text} (hmore : 41 ∉ more) :
    41 ∉ spaced r.words ++ 32 :: more := by
  intro hmem
  rcases List.mem_append.mp hmem with h | h
  · obtain ⟨word, hword, hb⟩ := List.mem_flatMap.mp h
    rcases List.mem_cons.mp hb with hspace | hb
    · exact absurd hspace (by decide)
    · exact ((r.words_plain lib hword).2 41 hb).2 rfl
  · rcases List.mem_cons.mp h with hspace | h
    · exact absurd hspace (by decide)
    · exact hmore h

theorem StatRecord.not_space_word (r : StatRecord) (lib : Library) {word : Text} (h : word ∈ r.words) : 32 ∉ word := by
  intro hmem
  have hplain := ((r.words_plain lib h).2 32 hmem).1
  rw [(lib.asciiIsSpace_iff 32).mpr (Or.inl rfl)] at hplain
  cases hplain

/-- The command stands between the first and the last parenthesis. -/
theorem readProcessStat_reads (lib : Library) (arith : Arithmetic) {r : StatRecord} {text : Text}
    (h : r.Reads lib text) : ∃ fields nativeStat, readProcessStat lib arith text = some (fields, nativeStat) ∧
      nativeStat.startTicks = r.starttime ∧ fields.name.text = r.comm.take 127 := by
  obtain ⟨more, rfl, hmore⟩ := h.split
  have hdigits : ∀ b ∈ Decimal.print r.pid ++ [32], (b != 40) = true := by
    intro b hb
    rcases List.mem_append.mp hb with hb | hb
    · refine bne_iff_ne.mpr fun heq => ?_
      have hdigit := Decimal.mem_print hb
      rw [heq] at hdigit
      exact absurd hdigit (by decide)
    · rw [List.mem_singleton.mp hb]
      decide
  have hleft : (Decimal.print r.pid ++ 32 :: 40 :: r.comm).dropWhile (· != 40) = 40 :: r.comm := by
    have happend : Decimal.print r.pid ++ 32 :: 40 :: r.comm = Decimal.print r.pid ++ [32] ++ 40 :: r.comm := by simp
    rw [happend, List.dropWhile_append_of_pos hdigits, List.dropWhile_cons_of_neg (by decide)]
  have hname : r.comm.takeWhile (· != 0) = r.comm :=
    List.takeWhile_eq_self_iff.mpr fun b hb => bne_iff_ne.mpr fun heq => r.nulFree (heq ▸ hb)
  have htokens : tokens (· == 32) ((spaced r.words ++ 32 :: more).drop 1) = r.words ++ tokens (· == 32) more := by
    have hspaced : spaced r.words ++ 32 :: more = 32 :: (spaced r.words ++ 32 :: more).drop 1 := rfl
    have hskip : tokens (· == 32) (32 :: (spaced r.words ++ 32 :: more).drop 1) =
        tokens (· == 32) ((spaced r.words ++ 32 :: more).drop 1) := tokens_cons_sep rfl _
    rw [← hskip, ← hspaced]
    exact tokens_spaced (fun w hw => (r.words_plain lib hw).1) (fun w hw => r.not_space_word lib hw) more
  unfold readProcessStat
  rw [cutLast_append (r.not_closing lib hmore)]
  dsimp only
  rw [if_neg (by simp), htokens, takeFields_words]
  refine ⟨_, _, rfl, rfl, ?_⟩
  show (((Decimal.print r.pid ++ 32 :: 40 :: r.comm).dropWhile (· != 40)).drop 1 |>.takeWhile (· != 0)).take 127 = _
  rw [hleft, List.drop_one, List.tail_cons, hname]

theorem parseStartTicks_reads (lib : Library) {r : StatRecord} {text : Text} (h : r.Reads lib text) :
    parseStartTicks lib text = some r.starttime := by
  obtain ⟨more, rfl, hmore⟩ := h.split
  have hwords : r.words = (List.range' 3 19).map r.fieldText ++ [Decimal.print r.starttime] := rfl
  have hfields : ∀ w ∈ (List.range' 3 19).map r.fieldText, w ∈ r.words := by
    intro w hw
    rw [hwords]
    exact List.mem_append_left _ hw
  have htext : spaced r.words ++ 32 :: more =
      spaced ((List.range' 3 19).map r.fieldText) ++ 32 :: (Decimal.print r.starttime ++ 32 :: more) := by
    rw [hwords, spaced, List.flatMap_append, List.flatMap_singleton, List.append_assoc, List.cons_append]
    rfl
  have hspaced : spaced r.words ++ 32 :: more = 32 :: (spaced r.words ++ 32 :: more).drop 1 := rfl
  unfold parseStartTicks
  rw [cutLast_append (r.not_closing lib hmore), hspaced]
  show startTicksFrom lib 20 ((spaced r.words ++ 32 :: more).drop 1) = some r.starttime
  rw [← startTicksFrom_space, ← hspaced, htext]
  have hrun := startTicksFrom_words lib (fun w hw => (r.words_plain lib (hfields w hw)).1)
    (fun w hw b hb => ((r.words_plain lib (hfields w hw)).2 b hb).1) (Decimal.print r.starttime ++ 32 :: more)
  rw [List.length_map, List.length_range'] at hrun
  rw [hrun, startTicksFrom_numeral lib r.starttime_pos r.starttime_le]

/-- A cut that takes only white space off the end leaves what ends in something else. -/
theorem append_of_trimmed {space : UInt8 → Bool} {text back front rest : Text} {b : UInt8}
    (h : text ++ back = front ++ b :: rest) (hb : space b = false) (hback : ∀ c ∈ back, space c = true) :
    ∃ more, text = front ++ b :: more ∧ rest = more ++ back := by
  have hnotin : b ∉ back := by
    intro hmem
    rw [hback b hmem] at hb
    cases hb
  rcases List.append_eq_append_iff.mp h with hcut | hcut
  · obtain ⟨extra, -, hextra⟩ := hcut
    refine absurd ?_ hnotin
    rw [hextra]
    exact List.mem_append_right _ (List.mem_cons_self ..)
  · obtain ⟨extra, htext, hrest⟩ := hcut
    cases extra with
    | nil =>
      refine absurd ?_ hnotin
      rw [List.nil_append] at hrest
      rw [← hrest]
      exact List.mem_cons_self ..
    | cons c extra =>
      obtain ⟨rfl, hback⟩ := List.cons.inj hrest
      exact ⟨extra, htext, hback⟩

/-- The record, and the record without white space at its ends. -/
theorem StatRecord.reads_of_trims (r : StatRecord) (lib : Library) {front text back : Text}
    (h : r.text = front ++ text ++ back) (hfront : ∀ b ∈ front, lib.asciiIsSpace b = true)
    (hback : ∀ b ∈ back, lib.asciiIsSpace b = true) : r.Reads lib text := by
  have hnil : front = [] := by
    cases front with
    | nil => rfl
    | cons b front =>
      have hhead : r.text.head? = some b := by rw [h]; rfl
      have hdigit : lib.asciiIsSpace b = false := by
        cases hprint : Decimal.print r.pid with
        | nil => exact absurd hprint (Decimal.print_ne_nil r.pid)
        | cons c rest =>
          have hhead' : r.text.head? = some c := by rw [StatRecord.text, hprint]; rfl
          rw [hhead, Option.some.injEq] at hhead'
          rw [hhead']
          exact lib.not_space_of_isDigit (Decimal.mem_print (n := r.pid) (by rw [hprint]; exact List.mem_cons_self ..))
      rw [hfront b (List.mem_cons_self ..)] at hdigit
      cases hdigit
  obtain ⟨hne, hplain⟩ := r.fieldText_plain lib 23
  cases hfield : r.fieldText 23 with
  | nil => exact absurd hfield hne
  | cons b field =>
    rw [hfield] at hplain
    -- field 23 begins with a byte that stays
    have hrange : List.range' 3 50 = List.range' 3 20 ++ 23 :: List.range' 24 29 := rfl
    have htext : r.text = (Decimal.print r.pid ++ 32 :: 40 :: r.comm ++ 41 :: (spaced r.words ++ [32])) ++
        b :: (field ++ (spaced ((List.range' 24 29).map r.fieldText) ++ [10])) := by
      rw [StatRecord.text, hrange, List.flatMap_append, List.flatMap_cons, hfield]
      simp [spaced, StatRecord.words, List.flatMap_map]
    rw [hnil, List.nil_append, htext] at h
    obtain ⟨more, hmore, hrest⟩ := append_of_trimmed h.symm (hplain b (List.mem_cons_self ..)).1 hback
    refine ⟨b :: more, ?_, fun hmem => ?_⟩
    · rw [hmore]
      simp
    · rcases List.mem_cons.mp hmem with heq | hmem
      · exact (hplain b (List.mem_cons_self ..)).2 heq.symm
      · have hin : (41 : UInt8) ∈ field ++ (spaced ((List.range' 24 29).map r.fieldText) ++ [10]) := by
          rw [hrest]
          exact List.mem_append_left _ hmem
        rcases List.mem_append.mp hin with hin | hin
        · exact (hplain 41 (List.mem_cons_of_mem b hin)).2 rfl
        · rcases List.mem_append.mp hin with hin | hin
          · obtain ⟨word, hword, hin⟩ := List.mem_flatMap.mp hin
            obtain ⟨k, -, rfl⟩ := List.mem_map.mp hword
            rcases List.mem_cons.mp hin with hspace | hin
            · exact absurd hspace (by decide)
            · exact ((r.fieldText_plain lib k).2 41 hin).2 rfl
          · exact absurd (List.mem_singleton.mp hin) (by decide)

/-- **The two readers of a stat record agree**, whatever the command is. -/
theorem stat_parsers_agree (lib : Library) (arith : Arithmetic) (reader : Reader lib) (r : StatRecord)
    (hfits : r.text.length < 4096) :
    (∃ fields nativeStat,
      (reader.readTextFileEx 8192 r.text).bind (readProcessStat lib arith) = some (fields, nativeStat) ∧
        nativeStat.startTicks = r.starttime ∧ fields.name.text = r.comm.take 127) ∧
    (reader.readTextFile 4096 r.text).bind (parseStartTicks lib) = some r.starttime ∧
    ∀ (procfs : Nat → Option Text) (processId instanceId : Nat), procfs processId = some r.text →
      lsmProcessIdentityMatches lib arith reader procfs processId instanceId =
        lsmProcessInspectionIdentityMatches lib reader procfs processId instanceId ∧
      (lsmProcessIdentityMatches lib arith reader procfs processId instanceId = true ↔
        (nativePid processId).isSome ∧ instanceId = r.starttime) := by
  have hwhole : r.Reads lib r.text := r.reads_of_trims lib (show r.text = [] ++ r.text ++ [] by simp)
    (fun b hb => absurd hb List.not_mem_nil) fun b hb => absurd hb List.not_mem_nil
  obtain ⟨fields, nativeStat, hread, hstart, hname⟩ := readProcessStat_reads lib arith hwhole
  have hex : (reader.readTextFileEx 8192 r.text).bind (readProcessStat lib arith) = some (fields, nativeStat) := by
    rw [reader.ex_eq 8192 r.text (by omega), Option.bind_some, hread]
  have hinspect : (reader.readTextFile 4096 r.text).bind (parseStartTicks lib) = some r.starttime := by
    obtain ⟨front, text, back, htext, hsplit, hfront, hback⟩ := reader.trims 4096 r.text hfits
    rw [htext, Option.bind_some, parseStartTicks_reads lib (r.reads_of_trims lib hsplit hfront hback)]
  refine ⟨⟨fields, nativeStat, hex, hstart, hname⟩, hinspect, fun procfs processId instanceId hprocfs => ?_⟩
  have hpid : ∀ pid, nativePid processId = some pid → pid = processId := by
    intro pid hpid
    unfold nativePid at hpid
    split at hpid
    · cases hpid
    · exact (Option.some.inj hpid).symm
  unfold lsmProcessIdentityMatches lsmProcessInspectionIdentityMatches
  cases hnative : nativePid processId with
  | none => simp
  | some pid =>
    obtain rfl := hpid pid hnative
    dsimp only
    rw [hprocfs, Option.bind_some, Option.bind_some, hex, hinspect]
    dsimp only
    rw [hstart]
    by_cases hzero : instanceId = 0
    · rw [if_pos hzero, hzero]
      have hpos := r.starttime_pos
      exact ⟨rfl, fun h => Bool.noConfusion h, fun h => absurd h.2 (Nat.ne_of_lt hpos)⟩
    · rw [if_neg hzero, beq_iff_eq]
      exact ⟨rfl, fun h => ⟨rfl, h.symm⟩, fun h => h.2.symm⟩

/-- A command that imitates the rest of a record. -/
def imitation : StatRecord where
  pid := 7
  comm := ascii "a) R 1 (b\n) S 2 3"
  state := 83
  ppid := 1
  minflt := 0
  majflt := 0
  utime := 0
  stime := 0
  nice := -5
  threads := 1
  starttime := 4242
  other := fun _ => -1
  nulFree := by decide
  letter := by decide
  ppid_le := by decide
  minflt_le := by decide
  majflt_le := by decide
  utime_le := by decide
  stime_le := by decide
  nice_range := by decide
  threads_le := by decide
  starttime_pos := by decide
  starttime_le := by decide

theorem stat_parsers_agree_imitation :
    (Reader.documented.readTextFile 4096 imitation.text).bind (parseStartTicks Library.documented) = some 4242 ∧
    lsmProcessIdentityMatches Library.documented Arithmetic.documented Reader.documented
      (fun _ => some imitation.text) 7 4242 =
    lsmProcessInspectionIdentityMatches Library.documented Reader.documented (fun _ => some imitation.text) 7 4242 :=
  have h := stat_parsers_agree Library.documented Arithmetic.documented Reader.documented imitation (by decide +kernel)
  ⟨h.2.1, (h.2.2 (fun _ => some imitation.text) 7 4242 rfl).1⟩

end SystemMonitor.Procfs
