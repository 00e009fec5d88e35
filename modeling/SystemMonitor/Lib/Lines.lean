import Mathlib.Algebra.Order.Field.Rat
import Mathlib.Data.List.TakeWhile

/-! Reading a byte stream line by line, and a line field by field, as the C
library and GLib do.

`fgets` fills a buffer of a given room and stops after a newline; what a reader
sees of the buffer ends at the first NUL. `foldLines` is the usual loop around
it, which discards the rest of a line that did not fit. `strsplit` cuts a text
at a separator into at most a given number of fields, the last of which is all
that is left. A stream made of proper lines is read back line for line
(`foldLines_lines`), and a line made of fields field for field
(`strsplit_join`). -/
namespace SystemMonitor.Lib.Lines

abbrev Bytes := List UInt8

/-! ### Lines -/

/-- What one call stores, and what is left of the stream. -/
def fgets : Nat → Bytes → Bytes × Bytes
  | 0, bytes => ([], bytes)
  | _ + 1, [] => ([], [])
  | room + 1, b :: bytes =>
    if b = 10 then ([b], bytes)
    else
      let more := fgets room bytes
      (b :: more.1, more.2)

/-- The call ran into the end of the stream: there was room left and no newline. -/
def atEnd (room : Nat) (line : Bytes) : Bool := decide (line.length < room) && line.getLast? != some 10

/-- The C string a buffer holds. -/
def cString (buffer : Bytes) : Bytes := buffer.takeWhile (· != 0)

def isComplete (text : Bytes) : Bool := text.getLast? == some 10

/-- Newlines and carriage returns at the end are cut off. -/
def strip (text : Bytes) : Bytes := (text.reverse.dropWhile fun b => b == 10 || b == 13).reverse

/-- Everything up to and including the next newline is read and dropped. -/
def skipLine (bytes : Bytes) : Bytes := (bytes.dropWhile (· != 10)).drop 1

variable {σ : Type}

/-- The loop; every turn takes at least one byte. -/
def foldLines (room : Nat) (onLine : σ → Bytes → σ) (onLong : σ → σ) : Nat → σ → Bytes → σ
  | 0, acc, _ => acc
  | _ + 1, acc, [] => acc
  | fuel + 1, acc, b :: bytes =>
    let got := fgets room (b :: bytes)
    let text := cString got.1
    if !isComplete text && !atEnd room got.1 then
      foldLines room onLine onLong fuel (onLong acc) (skipLine got.2)
    else foldLines room onLine onLong fuel (onLine acc (strip text)) got.2

/-- Two loops over one stream stay related when every NUL-free line keeps them so. -/
theorem foldLines_relate {τ : Type} {room : Nat} {onLine : σ → Bytes → σ} {onLong : σ → σ}
    {onLine' : τ → Bytes → τ} {onLong' : τ → τ} (Rel : σ → τ → Prop)
    (hline : ∀ acc acc' line, 0 ∉ line → Rel acc acc' → Rel (onLine acc line) (onLine' acc' line))
    (hlong : ∀ acc acc', Rel acc acc' → Rel (onLong acc) (onLong' acc')) (fuel : Nat) {acc : σ} {acc' : τ}
    (h : Rel acc acc') (bytes : Bytes) :
    Rel (foldLines room onLine onLong fuel acc bytes) (foldLines room onLine' onLong' fuel acc' bytes) := by
  induction fuel generalizing acc acc' bytes with
  | zero => exact h
  | succ fuel ih =>
    cases bytes with
    | nil => exact h
    | cons b bytes =>
      simp only [foldLines]
      split
      · exact ih (hlong acc acc' h) _
      · refine ih (hline acc acc' _ ?_ h) _
        intro hmem
        have htext := (List.dropWhile_sublist _).subset (List.mem_reverse.mp hmem)
        have hnul := List.mem_takeWhile_imp (List.mem_reverse.mp htext)
        exact absurd hnul (by decide)

/-- What every NUL-free line keeps, the loop keeps. -/
theorem foldLines_induct {room : Nat} {onLine : σ → Bytes → σ} {onLong : σ → σ} (Inv : σ → Prop)
    (hline : ∀ acc line, 0 ∉ line → Inv acc → Inv (onLine acc line)) (hlong : ∀ acc, Inv acc → Inv (onLong acc))
    (fuel : Nat) {acc : σ} (hacc : Inv acc) (bytes : Bytes) : Inv (foldLines room onLine onLong fuel acc bytes) := by
  have hsame : foldLines room onLine onLong fuel acc bytes = foldLines room onLine onLong fuel acc bytes ∧
      Inv (foldLines room onLine onLong fuel acc bytes) := by
    apply foldLines_relate (fun a b : σ => a = b ∧ Inv a) _ _ fuel ⟨rfl, hacc⟩ bytes
    · intro a b line hnul h
      exact ⟨by rw [h.1], hline a line hnul h.2⟩
    · intro a b h
      exact ⟨by rw [h.1], hlong a h.2⟩
  exact hsame.2

/-- A line that fits and comes back as it is. -/
structure Proper (room : Nat) (line : Bytes) : Prop where
  noNewline : 10 ∉ line
  noNul : 0 ∉ line
  fits : line.length < room
  noReturn : line.getLast? ≠ some 13

theorem fgets_line {room : Nat} {line : Bytes} (hnewline : 10 ∉ line) (hfits : line.length < room) (rest : Bytes) :
    fgets room (line ++ 10 :: rest) = (line ++ [10], rest) := by
  induction line generalizing room with
  | nil =>
    obtain ⟨room, rfl⟩ := Nat.exists_eq_succ_of_ne_zero (Nat.ne_of_gt hfits)
    rfl
  | cons b line ih =>
    obtain ⟨room, rfl⟩ := Nat.exists_eq_succ_of_ne_zero (Nat.ne_of_gt (Nat.lt_of_le_of_lt (Nat.zero_le _) hfits))
    have hb : b ≠ 10 := fun h => hnewline (h ▸ List.mem_cons_self ..)
    have hrest := ih (fun h => hnewline (List.mem_cons_of_mem _ h)) (Nat.lt_of_succ_lt_succ hfits)
    simp only [List.cons_append, fgets, hb, if_false, hrest]

/-- A line that does not fit fills the buffer. -/
theorem fgets_long {room : Nat} {line : Bytes} (hnewline : 10 ∉ line) (hroom : room ≤ line.length) (rest : Bytes) :
    fgets room (line ++ rest) = (line.take room, line.drop room ++ rest) := by
  induction line generalizing room with
  | nil =>
    obtain rfl := Nat.le_zero.mp hroom
    rfl
  | cons b line ih =>
    cases room with
    | zero => rfl
    | succ room =>
      have hb : b ≠ 10 := fun h => hnewline (h ▸ List.mem_cons_self ..)
      have hmore := ih (fun h => hnewline (List.mem_cons_of_mem _ h)) (Nat.le_of_succ_le_succ hroom)
      simp only [List.cons_append, fgets, hb, if_false, hmore, List.take_succ_cons, List.drop_succ_cons]

/-- The end of a stream that has no newline. -/
theorem fgets_end {room : Nat} {bytes : Bytes} (hnewline : 10 ∉ bytes) (hfits : bytes.length < room) :
    fgets room bytes = (bytes, []) := by
  induction bytes generalizing room with
  | nil => cases room <;> rfl
  | cons b bytes ih =>
    obtain ⟨room, rfl⟩ := Nat.exists_eq_succ_of_ne_zero (Nat.ne_of_gt (Nat.lt_of_le_of_lt (Nat.zero_le _) hfits))
    have hb : b ≠ 10 := fun h => hnewline (h ▸ List.mem_cons_self ..)
    have hmore := ih (fun h => hnewline (List.mem_cons_of_mem _ h)) (Nat.lt_of_succ_lt_succ hfits)
    simp only [fgets, hb, if_false, hmore]

theorem length_fgets (room : Nat) (bytes : Bytes) : (fgets room bytes).2.length ≤ bytes.length := by
  induction bytes generalizing room with
  | nil => cases room <;> exact Nat.le_refl _
  | cons b bytes ih =>
    cases room with
    | zero => exact Nat.le_refl _
    | succ room =>
      rw [fgets]
      split
      · exact Nat.le_succ _
      · exact (ih room).trans (Nat.le_succ _)

theorem cString_of_noNul {text : Bytes} (h : 0 ∉ text) : cString text = text := by
  unfold cString
  rw [List.takeWhile_eq_self_iff]
  intro b hb
  simp only [bne_iff_ne]
  intro heq
  subst heq
  exact h hb

/-- The newline at the end of a line is seen where no NUL hides it. -/
theorem mem_cString_line {line : Bytes} (hnewline : 10 ∉ line) : 10 ∈ cString (line ++ [10]) ↔ 0 ∉ line := by
  constructor
  · intro h hnul
    have hcut : cString (line ++ [10]) = line.takeWhile (· != 0) := by
      rw [cString, List.takeWhile_append, if_neg]
      intro hall
      have hself := (List.takeWhile_prefix (· != 0)).eq_of_length hall
      exact absurd (List.mem_takeWhile_imp (hself ▸ hnul)) (by decide)
    rw [hcut] at h
    exact hnewline ((List.takeWhile_prefix _).subset h)
  · intro h
    rw [cString_of_noNul (by simpa using h)]
    exact List.mem_append_right _ (List.mem_singleton_self _)

theorem not_mem_cString {text : Bytes} {b : UInt8} (h : b ∉ text) : b ∉ cString text :=
  fun hmem => h ((List.takeWhile_prefix _).subset hmem)

theorem strip_line {line : Bytes} (hnewline : 10 ∉ line) (hreturn : line.getLast? ≠ some 13) :
    strip (line ++ [10]) = line := by
  unfold strip
  rw [List.reverse_append, List.reverse_singleton, List.singleton_append, List.dropWhile_cons_of_pos (by decide)]
  cases hline : line.reverse with
  | nil => simpa using hline
  | cons last front =>
    have heq : line = front.reverse ++ [last] := by rw [← List.reverse_reverse line, hline, List.reverse_cons]
    have hten : last ≠ 10 := by
      intro heq
      subst heq
      exact hnewline (by rw [heq]; simp)
    have hthirteen : last ≠ 13 := by
      intro heq
      subst heq
      exact hreturn (by rw [heq]; simp)
    rw [List.dropWhile_cons_of_neg (by simp [hten, hthirteen]), heq, List.reverse_cons]

/-- **A stream of proper lines is read back line for line.** -/
theorem foldLines_lines (room : Nat) (onLine : σ → Bytes → σ) (onLong : σ → σ) (lines : List Bytes)
    (hlines : ∀ line ∈ lines, Proper room line) (fuel : Nat)
    (hfuel : (lines.flatMap (· ++ [10])).length ≤ fuel) (acc : σ) :
    foldLines room onLine onLong fuel acc (lines.flatMap (· ++ [10])) = lines.foldl onLine acc := by
  induction lines generalizing fuel acc with
  | nil => cases fuel <;> rfl
  | cons line rest ih =>
    have hproper := hlines line (List.mem_cons_self ..)
    have hbytes : (line :: rest).flatMap (· ++ [10]) = line ++ 10 :: rest.flatMap (· ++ [10]) := by simp
    rw [hbytes] at hfuel ⊢
    simp only [List.length_append, List.length_cons] at hfuel
    obtain ⟨fuel, rfl⟩ := Nat.exists_eq_succ_of_ne_zero (show fuel ≠ 0 by omega)
    obtain ⟨b, bytes, hcons⟩ : ∃ b bytes, line ++ 10 :: rest.flatMap (· ++ [10]) = b :: bytes := by
      cases line with
      | nil => exact ⟨_, _, rfl⟩
      | cons b line => exact ⟨_, _, rfl⟩
    have hget := fgets_line hproper.noNewline hproper.fits (rest.flatMap (· ++ [10]))
    have hstring : cString (line ++ [10]) = line ++ [10] := cString_of_noNul (by simpa using hproper.noNul)
    have hcomplete : isComplete (line ++ [10]) = true := by simp [isComplete]
    rw [hcons] at hget ⊢
    simp only [foldLines, hget, hstring, hcomplete, Bool.not_true, Bool.false_and, Bool.false_eq_true, if_false,
      strip_line hproper.noNewline hproper.noReturn, List.foldl_cons]
    exact ih (fun l hl => hlines l (List.mem_cons_of_mem _ hl)) fuel (by omega) _

/-! ### Buffers -/

/-- What `while (fgets(…))` stores, call by call; every call takes at least one byte. -/
def buffers (room : Nat) : Nat → Bytes → List Bytes
  | 0, _ => []
  | _ + 1, [] => []
  | fuel + 1, b :: bytes => (fgets room (b :: bytes)).1 :: buffers room fuel (fgets room (b :: bytes)).2

def buffersOf (room : Nat) (text : Bytes) : List Bytes := buffers room text.length text

theorem fgets_append (room : Nat) (bytes : Bytes) : (fgets room bytes).1 ++ (fgets room bytes).2 = bytes := by
  induction bytes generalizing room with
  | nil => cases room <;> rfl
  | cons b bytes ih =>
    cases room with
    | zero => rfl
    | succ room =>
      rw [fgets]
      split
      · rfl
      · exact congrArg (b :: ·) (ih room)

section
variable {room : Nat}

theorem length_fgets_cons (hroom : 0 < room) (b : UInt8) (bytes : Bytes) :
    (fgets room (b :: bytes)).2.length ≤ bytes.length := by
  obtain ⟨room, rfl⟩ := Nat.exists_eq_succ_of_ne_zero hroom.ne'
  rw [fgets]
  split
  · exact le_rfl
  · exact length_fgets room bytes

/-- Fuel for every byte is enough. -/
theorem buffers_fuel (hroom : 0 < room) {fuel more : Nat} {text : Bytes} (hfuel : text.length ≤ fuel)
    (hmore : text.length ≤ more) : buffers room fuel text = buffers room more text := by
  induction fuel generalizing more text with
  | zero =>
    obtain rfl := List.length_eq_zero_iff.mp (Nat.le_zero.mp hfuel)
    cases more <;> rfl
  | succ fuel ih =>
    cases text with
    | nil => cases more <;> rfl
    | cons b bytes =>
      obtain ⟨more, rfl⟩ := Nat.exists_eq_succ_of_ne_zero (Nat.ne_of_gt (Nat.lt_of_lt_of_le (Nat.succ_pos _) hmore))
      have hlength := length_fgets_cons hroom b bytes
      rw [List.length_cons] at hfuel hmore
      have hrest : buffers room fuel (fgets room (b :: bytes)).2 = buffers room more (fgets room (b :: bytes)).2 :=
        ih (by omega) (by omega)
      rw [buffers, buffers, hrest]

/-- What is stored of a line, and what is left of it. -/
theorem fgets_take {line : Bytes} (hnewline : 10 ∉ line) :
    fgets room (line ++ [10]) = ((line ++ [10]).take room, (line ++ [10]).drop room) := by
  by_cases hfits : line.length < room
  · have hlength : (line ++ [10]).length ≤ room := by
      rw [List.length_append, List.length_singleton]
      exact hfits
    rw [fgets_line hnewline hfits, List.take_of_length_le hlength, List.drop_eq_nil_of_le hlength]
  · have hlong := Nat.le_of_not_lt hfits
    rw [fgets_long hnewline hlong, List.take_append_of_le_length hlong, List.drop_append_of_le_length hlong]

theorem buffersOf_of_ne_nil (hroom : 0 < room) {text : Bytes} (h : text ≠ []) :
    buffersOf room text = (fgets room text).1 :: buffersOf room (fgets room text).2 := by
  obtain ⟨b, bytes, rfl⟩ := List.exists_cons_of_ne_nil h
  exact congrArg _ (buffers_fuel hroom (length_fgets_cons hroom b bytes) le_rfl)

/-- A line is stored apart from what follows it. -/
theorem buffersOf_line (hroom : 0 < room) {line : Bytes} (hnewline : 10 ∉ line) (rest : Bytes) :
    buffersOf room (line ++ 10 :: rest) = buffersOf room (line ++ [10]) ++ buffersOf room rest := by
  induction hn : line.length using Nat.strongRecOn generalizing line with
  | _ n ih =>
    subst hn
    have hne : ∀ rest : Bytes, line ++ 10 :: rest ≠ [] := fun rest => List.append_ne_nil_of_right_ne_nil _ (List.cons_ne_nil _ _)
    rw [buffersOf_of_ne_nil hroom (hne rest), buffersOf_of_ne_nil hroom (hne [])]
    by_cases hfits : line.length < room
    · rw [fgets_line hnewline hfits, fgets_line hnewline hfits]
      rfl
    · have hlong := Nat.le_of_not_lt hfits
      have hlater := ih (line.drop room).length (by rw [List.length_drop]; omega)
        (fun h => hnewline (List.mem_of_mem_drop h)) rfl
      rw [fgets_long hnewline hlong, fgets_long hnewline hlong]
      exact congrArg _ hlater

theorem buffersOf_short (hroom : 0 < room) {line : Bytes} (hnewline : 10 ∉ line) (hfits : line.length < room) :
    buffersOf room (line ++ [10]) = [line ++ [10]] := by
  have hne : line ++ [10] ≠ [] := List.append_ne_nil_of_right_ne_nil _ (List.cons_ne_nil _ _)
  rw [buffersOf_of_ne_nil hroom hne, fgets_line hnewline hfits]
  rfl

/-- **A stream of lines is stored line by line.** -/
theorem buffersOf_lines (hroom : 0 < room) {lines : List Bytes} (hlines : ∀ line ∈ lines, 10 ∉ line) :
    buffersOf room (lines.flatMap (· ++ [10])) = lines.flatMap fun line => buffersOf room (line ++ [10]) := by
  induction lines with
  | nil => rfl
  | cons line lines ih =>
    have hrest := ih fun l hl => hlines l (List.mem_cons_of_mem _ hl)
    rw [List.flatMap_cons, List.flatMap_cons, List.append_assoc, List.singleton_append,
      buffersOf_line hroom (hlines line (List.mem_cons_self ..)), hrest]

theorem mem_buffers {fuel : Nat} {text piece : Bytes} {b : UInt8} (hpiece : piece ∈ buffers room fuel text)
    (hb : b ∈ piece) : b ∈ text := by
  induction fuel generalizing text with
  | zero => cases hpiece
  | succ fuel ih =>
    cases text with
    | nil => cases hpiece
    | cons c bytes =>
      rw [← fgets_append room (c :: bytes)]
      rcases List.mem_cons.mp hpiece with rfl | hlater
      · exact List.mem_append_left _ hb
      · exact List.mem_append_right _ (ih hlater)

end

/-! ### Fields -/

/-- At most `cuts` cuts; the last field is the rest. -/
def cutFields (sep : UInt8) : Nat → Bytes → List Bytes
  | 0, text => [text]
  | cuts + 1, text =>
    match text.dropWhile (· != sep) with
    | [] => [text]
    | _ :: rest => text.takeWhile (· != sep) :: cutFields sep cuts rest

/-- Splitting the empty text gives no field at all. -/
def strsplit (sep : UInt8) (fields : Nat) (text : Bytes) : List Bytes :=
  if text = [] then [] else cutFields sep (fields - 1) text

theorem mem_cutFields {sep b : UInt8} {cuts : Nat} {text f : Bytes} (hf : f ∈ cutFields sep cuts text) (hb : b ∈ f) :
    b ∈ text := by
  induction cuts generalizing text with
  | zero =>
    rw [cutFields, List.mem_singleton] at hf
    exact hf ▸ hb
  | succ cuts ih =>
    rw [cutFields] at hf
    split at hf
    · rw [List.mem_singleton] at hf
      exact hf ▸ hb
    · rename_i rest hdrop
      rcases List.mem_cons.mp hf with rfl | hf
      · exact (List.takeWhile_sublist _).subset hb
      · exact (List.dropWhile_sublist _).subset (hdrop ▸ List.mem_cons_of_mem _ (ih hf))

theorem mem_strsplit {sep b : UInt8} {fields : Nat} {text f : Bytes} (hf : f ∈ strsplit sep fields text)
    (hb : b ∈ f) : b ∈ text := by
  unfold strsplit at hf
  split at hf
  · cases hf
  · exact mem_cutFields hf hb

/-- The first field starts as the text does, if it is not empty. -/
theorem strsplit_head {sep : UInt8} {fields : Nat} {text first : Bytes} {rest : List Bytes}
    (h : strsplit sep fields text = first :: rest) : first = [] ∨ first.head? = text.head? := by
  unfold strsplit at h
  split at h
  · cases h
  · cases hcuts : fields - 1 with
    | zero =>
      rw [hcuts, cutFields] at h
      cases h
      exact Or.inr rfl
    | succ cuts =>
      rw [hcuts, cutFields] at h
      split at h
      · cases h
        exact Or.inr rfl
      · cases h
        cases text with
        | nil => exact Or.inl rfl
        | cons b text =>
          by_cases hb : (b != sep) = true
          · right
            simp [hb]
          · left
            simp [hb]

/-- The fields with the separator between them. -/
def join (sep : UInt8) : List Bytes → Bytes
  | [] => []
  | [field] => field
  | field :: next :: rest => field ++ sep :: join sep (next :: rest)

/-- A text cut at its first separator. -/
theorem cut_first {sep b : UInt8} {text rest : Bytes} (h : text.dropWhile (· != sep) = b :: rest) :
    b = sep ∧ text.takeWhile (· != sep) ++ sep :: rest = text := by
  have hne : text.dropWhile (· != sep) ≠ [] := by
    rw [h]
    exact List.cons_ne_nil b rest
  have hstop := List.head_dropWhile_not (· != sep) hne
  simp only [h, List.head_cons, bne_eq_false_iff_eq] at hstop
  subst hstop
  rw [← h, List.takeWhile_append_dropWhile]
  exact ⟨rfl, rfl⟩

theorem cutFields_join (sep : UInt8) (fields : List Bytes) (hne : fields ≠ [])
    (hfields : ∀ f ∈ fields, sep ∉ f) : cutFields sep (fields.length - 1) (join sep fields) = fields := by
  induction fields with
  | nil => exact absurd rfl hne
  | cons field rest ih =>
    cases rest with
    | nil => rfl
    | cons next rest =>
      have hnot : ∀ b ∈ field, (b != sep) = true := by
        intro b hb
        simp only [bne_iff_ne]
        intro heq
        subst heq
        exact hfields field (List.mem_cons_self ..) hb
      have hdrop : (field ++ sep :: join sep (next :: rest)).dropWhile (· != sep) = sep :: join sep (next :: rest) := by
        rw [List.dropWhile_append_of_pos hnot, List.dropWhile_cons_of_neg (by simp)]
      have htake : (field ++ sep :: join sep (next :: rest)).takeWhile (· != sep) = field := by
        rw [List.takeWhile_append_of_pos hnot, List.takeWhile_cons_of_neg (by simp), List.append_nil]
      have hrest := ih (by simp) fun f hf => hfields f (List.mem_cons_of_mem _ hf)
      simp only [List.length_cons, Nat.add_sub_cancel] at hrest
      simp only [join, List.length_cons, Nat.add_sub_cancel, cutFields, hdrop, htake, hrest]

/-- **A line of fields is split back into them.** -/
theorem strsplit_join (sep : UInt8) (fields : List Bytes) (hne : join sep fields ≠ [])
    (hfields : ∀ f ∈ fields, sep ∉ f) : strsplit sep fields.length (join sep fields) = fields := by
  unfold strsplit
  rw [if_neg hne]
  apply cutFields_join sep fields _ hfields
  intro heq
  subst heq
  exact hne rfl

theorem mem_join {sep b : UInt8} {fields : List Bytes} (h : b ∈ join sep fields) :
    b = sep ∨ ∃ f ∈ fields, b ∈ f := by
  induction fields with
  | nil => cases h
  | cons field rest ih =>
    cases rest with
    | nil => exact Or.inr ⟨field, List.mem_cons_self .., h⟩
    | cons next rest =>
      rcases List.mem_append.mp h with h | h
      · exact Or.inr ⟨field, List.mem_cons_self .., h⟩
      · rcases List.mem_cons.mp h with rfl | h
        · exact Or.inl rfl
        · rcases ih h with rfl | ⟨f, hf, hb⟩
          · exact Or.inl rfl
          · exact Or.inr ⟨f, List.mem_cons_of_mem _ hf, hb⟩

theorem mem_join_of_mem {sep b : UInt8} {fields : List Bytes} {field : Bytes} (hfield : field ∈ fields)
    (hb : b ∈ field) : b ∈ join sep fields := by
  induction fields with
  | nil => cases hfield
  | cons first rest ih =>
    cases rest with
    | nil => rwa [join, ← List.mem_singleton.mp hfield]
    | cons next rest =>
      rw [join]
      rcases List.mem_cons.mp hfield with rfl | hfield
      · exact List.mem_append_left _ hb
      · exact List.mem_append_right _ (List.mem_cons_of_mem _ (ih hfield))

theorem join_concat (sep : UInt8) {front : List Bytes} (h : front ≠ []) (field : Bytes) :
    join sep (front ++ [field]) = join sep front ++ sep :: field := by
  induction front with
  | nil => exact absurd rfl h
  | cons first rest ih =>
    cases rest with
    | nil => rfl
    | cons next rest =>
      have hrest := ih (List.cons_ne_nil next rest)
      simp only [List.cons_append] at hrest ⊢
      rw [join, hrest, join, List.append_assoc, List.cons_append]

/-- All fields but the last are followed by a separator. -/
theorem join_flatMap (sep : UInt8) (front : List Bytes) (field : Bytes) :
    join sep (front ++ [field]) = front.flatMap (· ++ [sep]) ++ field := by
  induction front with
  | nil => rfl
  | cons first rest ih =>
    have hne : rest ++ [field] ≠ [] := List.append_ne_nil_of_right_ne_nil _ (List.cons_ne_nil _ _)
    obtain ⟨next, more, hcons⟩ := List.exists_cons_of_ne_nil hne
    rw [List.cons_append, hcons, join, ← hcons, ih, List.flatMap_cons, List.append_assoc, List.append_assoc]
    rfl

/-- The fields between the separators of a text. -/
theorem join_splitOnP (sep : UInt8) (text : Bytes) : join sep (text.splitOnP (· == sep)) = text := by
  induction text with
  | nil => rfl
  | cons b text ih =>
    rw [List.splitOnP_cons_eq_if_modifyHead]
    cases hsplit : text.splitOnP (· == sep) with
    | nil => exact absurd hsplit (List.splitOnP_ne_nil _ _)
    | cons first rest =>
      rw [hsplit] at ih
      split
      · rename_i hb
        rw [join, List.nil_append, ih, eq_of_beq hb]
      · cases rest with
        | nil => exact congrArg (b :: ·) ih
        | cons next rest => exact congrArg (b :: ·) ih

theorem length_join (sep : UInt8) (fields : List Bytes) :
    (join sep fields).length ≤ (fields.map List.length).sum + fields.length := by
  induction fields with
  | nil => exact Nat.le_refl _
  | cons field rest ih =>
    cases rest with
    | nil => simp [join]
    | cons next rest =>
      simp only [join, List.length_append, List.length_cons, List.map_cons, List.sum_cons] at ih ⊢
      omega

end SystemMonitor.Lib.Lines
