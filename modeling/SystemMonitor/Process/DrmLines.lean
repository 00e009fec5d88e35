import Mathlib.Data.List.Basic
import SystemMonitor.Process.DrmClients

/-! The lines of an information file.

A line is a key and a value, and the keys that are known make an item each. The reader goes
from item to item (`readLine_eq`, `foldl_readLine`), whatever a line looks like otherwise, and a
file of short lines comes through its buffer (`itemsOf_linesOf`). An item has the key of its
line (`keyOf_itemOf`), so that where no key is repeated no item is either. -/
namespace SystemMonitor.Process.Drm
open Lib

/-! ### Fields of a line -/

theorem splitField_eq_some_iff {line key value : Text} :
    splitField line = some (key, value) ↔ line = key ++ 58 :: value ∧ 58 ∉ key := by
  constructor
  · intro h
    rw [splitField] at h
    split at h
    · cases h
    · rename_i rest hdrop
      obtain ⟨rfl, rfl⟩ := Prod.mk.inj (Option.some.inj h)
      exact ⟨(Lines.cut_first hdrop).2.symm, fun hmem => absurd (List.mem_takeWhile_imp hmem) (by decide)⟩
  · intro ⟨hline, hkey⟩
    have hall : ∀ b ∈ key, (b != 58) = true := fun b hb => bne_iff_ne.mpr fun heq => hkey (heq ▸ hb)
    have hdrop : (58 :: value).dropWhile (· != 58) = 58 :: value := List.dropWhile_cons_of_neg (by decide)
    have htake : (58 :: value).takeWhile (· != 58) = [] := List.takeWhile_cons_of_neg (by decide)
    rw [splitField, hline, List.dropWhile_append_of_pos hall, hdrop, List.takeWhile_append_of_pos hall, htake,
      List.append_nil]

theorem splitField_eq_none {line : Text} (h : splitField line = none) : 58 ∉ line := by
  intro hmem
  rw [splitField] at h
  split at h
  · rename_i hdrop
    rw [List.dropWhile_eq_nil_iff] at hdrop
    exact absurd (hdrop 58 hmem) (by decide)
  · cases h

/-- What begins a line begins its key. -/
theorem prefix_key {word : Text} (hword : 58 ∉ word) (key value : Text) :
    word.isPrefixOf (key ++ 58 :: value) = word.isPrefixOf key := by
  rw [Bool.eq_iff_iff, List.isPrefixOf_iff_prefix, List.isPrefixOf_iff_prefix]
  constructor
  · intro h
    rcases List.prefix_or_prefix_of_prefix h (List.prefix_append key _) with hshort | ⟨rest, rfl⟩
    · exact hshort
    · rw [List.prefix_append_right_inj] at h
      cases rest with
      | nil => exact (List.append_nil key).symm ▸ List.prefix_rfl
      | cons b rest =>
        obtain ⟨rfl, -⟩ := List.cons_prefix_cons.mp h
        exact absurd (List.mem_append_right _ (List.mem_cons_self ..)) hword
  · intro h
    exact h.trans (List.prefix_append key _)

/-- A word with its colon begins the lines of that key. -/
theorem prefix_field {word key : Text} (hword : 58 ∉ word) (hkey : 58 ∉ key) (value : Text) :
    (word ++ [58]).isPrefixOf (key ++ 58 :: value) = decide (key = word) := by
  rw [Bool.eq_iff_iff, List.isPrefixOf_iff_prefix, decide_eq_true_iff]
  constructor
  · intro ⟨rest, hrest⟩
    rw [List.append_assoc, List.singleton_append] at hrest
    have hfirst := splitField_eq_some_iff.mpr ⟨hrest.symm, hword⟩
    rw [splitField_eq_some_iff.mpr ⟨rfl, hkey⟩] at hfirst
    exact (Prod.mk.inj (Option.some.inj hfirst)).1
  · intro h
    rw [h]
    exact ⟨value, by rw [List.append_assoc, List.singleton_append]⟩

/-- No line without a colon begins with a word that has one. -/
theorem prefix_colon {word line : Text} (hword : 58 ∈ word) (hline : 58 ∉ line) : word.isPrefixOf line = false := by
  rw [Bool.eq_false_iff, ne_eq, List.isPrefixOf_iff_prefix]
  exact fun h => hline (h.subset hword)

/-! ### Items -/

inductive Item where
  | driver (value : Text)
  | pdev (value : Text)
  | minor (value : Text)
  | clientId (id : Option Nat)
  | capacity (name : Text) (count : Nat)
  | time (name : Text) (timeNs : Nat)
  | region (resident : Bool) (name : Text) (bytes : Nat)
  deriving DecidableEq

def Item.key : Item → Text
  | .driver _ => ascii "drm-driver"
  | .pdev _ => ascii "drm-pdev"
  | .minor _ => ascii "drm-minor"
  | .clientId _ => ascii "drm-client-id"
  | .capacity name _ => ascii "drm-engine-capacity-" ++ name
  | .time name _ => ascii "drm-engine-" ++ name
  | .region true name _ => ascii "drm-resident-" ++ name
  | .region false name _ => ascii "drm-memory-" ++ name

/-- The names and values within their buffers. -/
def Item.Fits : Item → Prop
  | .driver value => value.length ≤ 63
  | .pdev value => value.length ≤ 95
  | .minor value => value.length ≤ 89
  | .clientId _ => True
  | .capacity name _ => name.length ≤ 255
  | .time name _ => name.length ≤ 255
  | .region _ name _ => name.length ≤ 95

instance : DecidablePred Item.Fits
  | .driver value => inferInstanceAs (Decidable (value.length ≤ 63))
  | .pdev value => inferInstanceAs (Decidable (value.length ≤ 95))
  | .minor value => inferInstanceAs (Decidable (value.length ≤ 89))
  | .clientId _ => inferInstanceAs (Decidable True)
  | .capacity name _ => inferInstanceAs (Decidable (name.length ≤ 255))
  | .time name _ => inferInstanceAs (Decidable (name.length ≤ 255))
  | .region _ name _ => inferInstanceAs (Decidable (name.length ≤ 95))

variable (lib : Library)

/-- What a line says. -/
def itemOf (line : Text) : Option Item :=
  match splitField line with
  | none => none
  | some (key, value) =>
    if key = ascii "drm-driver" then some (.driver (lib.text.trim value))
    else if key = ascii "drm-pdev" then some (.pdev (lib.text.trim value))
    else if key = ascii "drm-minor" then some (.minor (lib.text.trim value))
    else if key = ascii "drm-client-id" then
      some (.clientId ((lib.text.parseU64Token (lib.text.trim value)).map (·.1)))
    else if (ascii "drm-engine-capacity-").isPrefixOf key then
      ((lib.text.parseU64Token value).filter fun token => decide (token.1 ≠ 0)).map fun token =>
        .capacity (key.drop 20) (min token.1 uintMax)
    else if (ascii "drm-engine-").isPrefixOf key then
      (lib.text.parseU64Token value).map fun token => .time (key.drop 11) token.1
    else if (ascii "drm-resident-").isPrefixOf key then
      (lib.parseBinaryQuantity (lib.text.trim value)).map (.region true (key.drop 13))
    else if (ascii "drm-memory-").isPrefixOf key then
      (lib.parseBinaryQuantity (lib.text.trim value)).map (.region false (key.drop 11))
    else none

/-- What the reader makes of an item. -/
def ReadState.take (s : ReadState) : Item → ReadState
  | .driver value => {s with driver := .ofText value}
  | .pdev value => {s with device := .ofText value}
  | .minor value => if s.device.text = [] then {s with device := .ofText (ascii "minor-" ++ value)} else s
  | .clientId id => {s with clientId := id}
  | .capacity name count => s.addEngine lib name 0 count false
  | .time name timeNs => {s.addEngine lib name timeNs 1 true with recognised := true}
  | .region resident name bytes =>
    let set := s.setMemoryRegion name bytes resident
    {set with client := {set.client with memoryAvailable := true}, recognised := true}

/-- **A line is read as what it says.** -/
theorem readLine_eq (s : ReadState) (line : Text) : readLine lib s line = ((itemOf lib line).map (s.take lib)).getD s := by
  cases hsplit : splitField line with
  | none =>
    have hline := splitField_eq_none hsplit
    rw [readLine, itemOf, hsplit, prefix_colon (by decide) hline, prefix_colon (by decide) hline,
      prefix_colon (by decide) hline, prefix_colon (by decide) hline]
    simp
  | some field =>
    obtain ⟨key, value⟩ := field
    obtain ⟨rfl, hkey⟩ := splitField_eq_some_iff.mp hsplit
    have hfield : ∀ line word : Text, line = word ++ [58] → 58 ∉ word →
        line.isPrefixOf (key ++ 58 :: value) = decide (key = word) := by
      intro line word hline hword
      rw [hline]
      exact prefix_field hword hkey value
    have hdriver := hfield (ascii "drm-driver:") (ascii "drm-driver") (by decide) (by decide)
    have hpdev := hfield (ascii "drm-pdev:") (ascii "drm-pdev") (by decide) (by decide)
    have hminor := hfield (ascii "drm-minor:") (ascii "drm-minor") (by decide) (by decide)
    have hid := hfield (ascii "drm-client-id:") (ascii "drm-client-id") (by decide) (by decide)
    have hcapacity := @prefix_key (ascii "drm-engine-capacity-") (by decide) key value
    have htime := @prefix_key (ascii "drm-engine-") (by decide) key value
    have hresident := @prefix_key (ascii "drm-resident-") (by decide) key value
    have hmemory := @prefix_key (ascii "drm-memory-") (by decide) key value
    rw [readLine, itemOf, fieldValue, hsplit, hdriver, hpdev, hminor, hid, hcapacity, htime, hresident, hmemory]
    dsimp only [Option.map_some]
    by_cases h1 : key = ascii "drm-driver"
    · simp [h1, ReadState.take]
    by_cases h2 : key = ascii "drm-pdev"
    · rw [h2]
      rfl
    by_cases h3 : key = ascii "drm-minor"
    · rw [h3]
      cases hdevice : s.device.text with
      | nil => exact (if_pos hdevice).symm
      | cons b rest => exact (if_neg (by rw [hdevice]; exact List.cons_ne_nil b rest)).symm
    simp only [h1, h2, h3, decide_false, Bool.false_and, Bool.false_eq_true, if_false, decide_eq_true_eq]
    by_cases h4 : key = ascii "drm-client-id"
    · simp [h4, ReadState.take]
    simp only [h4, if_false]
    cases (ascii "drm-engine-capacity-").isPrefixOf key with
    | true =>
      cases lib.text.parseU64Token value with
      | none => rfl
      | some token =>
        by_cases hzero : token.1 = 0
        · simp [Option.filter, hzero]
        · have hmin : (if uintMax < token.1 then uintMax else token.1) = min token.1 uintMax := by
            rw [Nat.min_def]
            split <;> split <;> omega
          simp [Option.filter, hzero, hmin, ReadState.take]
    | false =>
    cases (ascii "drm-engine-").isPrefixOf key with
    | true =>
      cases lib.text.parseU64Token value with
      | none => rfl
      | some token => rfl
    | false =>
    cases (ascii "drm-resident-").isPrefixOf key with
    | true =>
      cases lib.parseBinaryQuantity (lib.text.trim value) with
      | none => rfl
      | some bytes => rfl
    | false =>
    cases (ascii "drm-memory-").isPrefixOf key with
    | true =>
      cases lib.parseBinaryQuantity (lib.text.trim value) with
      | none => rfl
      | some bytes => rfl
    | false => rfl

def itemsOf (lines : List Text) : List Item := lines.filterMap (itemOf lib)

theorem foldl_readLine (s : ReadState) (lines : List Text) :
    lines.foldl (readLine lib) s = (itemsOf lib lines).foldl (ReadState.take lib) s := by
  induction lines generalizing s with
  | nil => rfl
  | cons line rest ih =>
    rw [List.foldl_cons, readLine_eq, itemsOf, List.filterMap_cons]
    cases itemOf lib line with
    | none => exact ih s
    | some item => exact ih (s.take lib item)

/-! ### Keys -/

def keyOf (line : Text) : Option Text := (splitField line).map (·.1)

theorem prefix_append_drop {word key : Text} {n : Nat} (h : word.isPrefixOf key = true) (hn : word.length = n) :
    word ++ key.drop n = key := by
  rw [← hn]
  exact List.prefix_iff_eq_append.mp (List.isPrefixOf_iff_prefix.mp h)

/-- An item has the key of its line. -/
theorem keyOf_itemOf {line : Text} {item : Item} (h : itemOf lib line = some item) : keyOf line = some item.key := by
  rw [itemOf] at h
  rw [keyOf]
  split at h
  · cases h
  rename_i key value hsplit
  rw [hsplit, Option.map_some]
  split at h
  next hkey => exact Option.some.inj h ▸ congrArg some hkey
  split at h
  next hkey => exact Option.some.inj h ▸ congrArg some hkey
  split at h
  next hkey => exact Option.some.inj h ▸ congrArg some hkey
  split at h
  next hkey => exact Option.some.inj h ▸ congrArg some hkey
  split at h
  next hkey =>
    obtain ⟨token, -, rfl⟩ := Option.map_eq_some_iff.mp h
    exact congrArg some (prefix_append_drop hkey (by decide)).symm
  split at h
  next hkey =>
    obtain ⟨token, -, rfl⟩ := Option.map_eq_some_iff.mp h
    exact congrArg some (prefix_append_drop hkey (by decide)).symm
  split at h
  next hkey =>
    obtain ⟨bytes, -, rfl⟩ := Option.map_eq_some_iff.mp h
    exact congrArg some (prefix_append_drop hkey (by decide)).symm
  split at h
  next hkey =>
    obtain ⟨bytes, -, rfl⟩ := Option.map_eq_some_iff.mp h
    exact congrArg some (prefix_append_drop hkey (by decide)).symm
  · cases h

theorem map_key_itemsOf (lines : List Text) : ((itemsOf lib lines).map Item.key).Sublist (lines.filterMap keyOf) := by
  induction lines with
  | nil => exact List.Sublist.slnil
  | cons line rest ih =>
    rw [itemsOf, List.filterMap_cons, List.filterMap_cons]
    cases hitem : itemOf lib line with
    | none =>
      cases keyOf line with
      | none => exact ih
      | some key => exact ih.cons key
    | some item =>
      rw [keyOf_itemOf lib hitem]
      exact ih.cons_cons item.key

/-! ### The lines of a file -/

/-- A line comes through the buffer. -/
theorem itemsOf_buffers {line : Text} (hnewline : 10 ∉ line) (hnul : 0 ∉ line) (hshort : line.length < 512) :
    itemsOf lib ((Lines.buffersOf lineRoom (line ++ [10])).map fun buffer => (Lines.cString buffer).takeWhile (· != 10)) =
      itemsOf lib [line] := by
  have hall : ∀ b ∈ line, (b != 10) = true := fun b hb => bne_iff_ne.mpr fun heq => hnewline (heq ▸ hb)
  have hcut : line.takeWhile (· != 10) = line := List.takeWhile_eq_self_iff.mpr hall
  have hstop : ([10] : Text).takeWhile (· != 10) = [] := rfl
  have hplain : 0 ∉ line ++ [10] := by simpa using hnul
  by_cases hfits : line.length < lineRoom
  · rw [Lines.buffersOf_short (by decide) hnewline hfits, List.map_singleton, Lines.cString_of_noNul hplain,
      List.takeWhile_append_of_pos hall, hstop, List.append_nil]
  · have hlength : line.length = lineRoom := by
      rw [lineRoom] at hfits ⊢
      omega
    have hne : line ++ [10] ≠ [] := List.append_ne_nil_of_right_ne_nil _ (List.cons_ne_nil _ _)
    rw [Lines.buffersOf_of_ne_nil (by decide) hne, Lines.fgets_long hnewline hlength.ge, List.take_of_length_le hlength.le,
      List.drop_eq_nil_of_le hlength.le, List.nil_append, List.map_cons, Lines.cString_of_noNul hnul, hcut]
    have hrest : Lines.buffersOf lineRoom [10] = [[10]] :=
      @Lines.buffersOf_short lineRoom (by decide) [] List.not_mem_nil (by decide)
    rw [hrest]
    rfl

/-- A file of short lines. -/
structure Plain (lines : List Text) : Prop where
  noNewline : ∀ line ∈ lines, 10 ∉ line
  noNul : ∀ line ∈ lines, 0 ∉ line
  short : ∀ line ∈ lines, line.length < 512

def textOf (lines : List Text) : Text := lines.flatMap (· ++ [10])

theorem itemsOf_linesOf {lines : List Text} (h : Plain lines) : itemsOf lib (linesOf (textOf lines)) = itemsOf lib lines := by
  rw [linesOf, textOf, Lines.buffersOf_lines (by decide) h.noNewline, List.map_flatMap, itemsOf, List.filterMap_flatMap]
  have hone : ∀ line ∈ lines, itemsOf lib ((Lines.buffersOf lineRoom (line ++ [10])).map fun buffer =>
      (Lines.cString buffer).takeWhile (· != 10)) = itemsOf lib [line] := fun line hline =>
    itemsOf_buffers lib (h.noNewline line hline) (h.noNul line hline) (h.short line hline)
  refine (List.flatMap_congr hone).trans ?_
  show (lines.flatMap fun line => [line].filterMap (itemOf lib)) = lines.filterMap (itemOf lib)
  rw [← List.filterMap_flatMap, List.flatMap_singleton']

/-! ### What an item holds -/

/-- Texts without NUL, and numbers in their ranges. -/
def Item.Sound : Item → Prop
  | .driver value => 0 ∉ value
  | .pdev value => 0 ∉ value
  | .minor value => 0 ∉ value
  | .clientId id => ∀ n, id = some n → n ≤ uint64Max
  | .capacity name count => 0 ∉ name ∧ 0 < count
  | .time name timeNs => 0 ∉ name ∧ timeNs ≤ uint64Max
  | .region _ name _ => 0 ∉ name

theorem mem_trim {text : Text} {b : UInt8} (h : b ∈ lib.text.trim text) : b ∈ text := by
  obtain ⟨back, hsplit, -⟩ := Procfs.trimmed_split lib.text.asciiIsSpace text
  rw [lib.text.trim_eq] at h
  rw [hsplit]
  exact List.mem_append_left _ (List.mem_append_right _ h)

theorem parseU64Token_le {text : Text} {token : Nat × Text} (h : lib.text.parseU64Token text = some token) :
    token.1 ≤ uint64Max := by
  rw [lib.text.parseU64Token_eq, Procfs.numeralAt] at h
  obtain ⟨n, hn, rfl⟩ := Option.map_eq_some_iff.mp h
  exact of_decide_eq_true (Option.filter_eq_some_iff.mp hn).2

theorem itemOf_sound {line : Text} {item : Item} (hnul : 0 ∉ line) (h : itemOf lib line = some item) : item.Sound := by
  rw [itemOf] at h
  split at h
  · cases h
  rename_i key value hsplit
  obtain ⟨rfl, -⟩ := splitField_eq_some_iff.mp hsplit
  have hvalue : 0 ∉ lib.text.trim value := fun hmem =>
    hnul (List.mem_append_right _ (List.mem_cons_of_mem _ (mem_trim lib hmem)))
  have hname : ∀ n, 0 ∉ key.drop n := fun n hmem => hnul (List.mem_append_left _ (List.mem_of_mem_drop hmem))
  split at h
  · exact Option.some.inj h ▸ hvalue
  split at h
  · exact Option.some.inj h ▸ hvalue
  split at h
  · exact Option.some.inj h ▸ hvalue
  split at h
  · refine Option.some.inj h ▸ fun n hn => ?_
    obtain ⟨token, htoken, rfl⟩ := Option.map_eq_some_iff.mp hn
    exact parseU64Token_le lib htoken
  split at h
  · obtain ⟨token, htoken, rfl⟩ := Option.map_eq_some_iff.mp h
    have hpos := of_decide_eq_true (Option.filter_eq_some_iff.mp htoken).2
    exact ⟨hname 20, Nat.lt_min.mpr ⟨Nat.pos_of_ne_zero hpos, by decide⟩⟩
  split at h
  · obtain ⟨token, htoken, rfl⟩ := Option.map_eq_some_iff.mp h
    exact ⟨hname 11, parseU64Token_le lib htoken⟩
  split at h
  · obtain ⟨bytes, -, rfl⟩ := Option.map_eq_some_iff.mp h
    exact hname 13
  split at h
  · obtain ⟨bytes, -, rfl⟩ := Option.map_eq_some_iff.mp h
    exact hname 11
  · cases h

end SystemMonitor.Process.Drm
