import SystemMonitor.Desktop.Startup

/-! What the startup backend uses besides the catalogue's part: paths and their last
component, and GKeyFile, which keeps the other keys of a file and loads what it has
written. -/
namespace SystemMonitor.Desktop
open Lib CStrings

/-! ### Paths -/

/-- What is used of Common besides the catalogue's part. -/
structure StartupLibrary extends Library where
  pathBasename_fullPath : ∀ base name, 47 ∉ name → pathBasename (fullPath base name) = name
  fullPath_noNul : ∀ base name, 0 ∉ base → 0 ∉ name → 0 ∉ fullPath base name

theorem pathBasename_joined (base name : Text) (h : 47 ∉ name) :
    Library.documented.pathBasename (Library.documented.fullPath base name) = name := by
  have hall : ∀ b ∈ name.reverse, (b != 47) = true := by
    intro b hb
    exact bne_iff_ne.mpr fun heq => h (heq ▸ List.mem_reverse.mp hb)
  have hslash : ∀ front : Text, afterLast 47 (front ++ 47 :: name) = name := by
    intro front
    rw [afterLast, List.reverse_append, List.reverse_cons, List.append_assoc, List.takeWhile_append_of_pos hall,
      List.singleton_append, List.takeWhile_cons_of_neg (by decide), List.append_nil, List.reverse_reverse]
  dsimp only [Library.documented]
  split
  next hlast =>
    obtain ⟨front, rfl⟩ := List.getLast?_eq_some_iff.mp hlast
    rw [List.append_assoc]
    exact hslash front
  next =>
    rw [List.append_assoc]
    exact hslash base

theorem joined_noNul (base name : Text) (hbase : 0 ∉ base) (hname : 0 ∉ name) :
    0 ∉ Library.documented.fullPath base name := by
  dsimp only [Library.documented]
  intro hmem
  rcases List.mem_append.mp hmem with hmem | hmem
  · split at hmem
    · exact hbase hmem
    · exact (List.mem_append.mp hmem).elim hbase (by decide)
  · exact hname hmem

/-- The documented behaviour as functions. -/
def StartupLibrary.documented : StartupLibrary where
  toLibrary := .documented
  pathBasename_fullPath := pathBasename_joined
  fullPath_noNul := joined_noNul

/-! ### Key files -/

/-- What is used of GKeyFile, on the group `Desktop Entry`. -/
structure KeyFileLibrary where
  File : Type
  keyFile : File → KeyFile
  setBoolean : File → Text → Bool → File
  toData : File → Option Text
  loadFromData : Text → Option File
  boolean_set : ∀ file key value, (keyFile (setBoolean file key value)).boolean key = some value
  boolean_other : ∀ file key value other, other ≠ key →
    (keyFile (setBoolean file key value)).boolean other = (keyFile file).boolean other
  string_other : ∀ file key value other, other ≠ key →
    (keyFile (setBoolean file key value)).string other = (keyFile file).string other
  loadFromData_toData : ∀ file data, toData file = some data →
    ∃ loaded, loadFromData data = some loaded ∧ keyFile loaded = keyFile file

/-- One key and its value. -/
def keyLine (item : Text × Text) : Text := item.1 ++ 61 :: item.2

def PlainItem (item : Text × Text) : Prop := 61 ∉ item.1 ∧ 10 ∉ keyLine item

instance (item : Text × Text) : Decidable (PlainItem item) := inferInstanceAs (Decidable (_ ∧ _))

def isNewline (b : UInt8) : Bool := b == 10

def parseBoolean (value : Text) : Option Bool :=
  if value = ascii "true" ∨ value = ascii "1" then some true
  else if value = ascii "false" ∨ value = ascii "0" then some false
  else none

def itemsText (file : List (Text × Text)) : Text := file.flatMap fun item => keyLine item ++ [10]

def parseItem (line : Text) : Text × Text := (line.takeWhile (· != 61), (line.dropWhile (· != 61)).drop 1)

theorem parseItem_keyLine {item : Text × Text} (h : PlainItem item) : parseItem (keyLine item) = item := by
  have hkey : ∀ b ∈ item.1, (b != 61) = true := fun b hb => bne_iff_ne.mpr fun heq => h.1 (heq ▸ hb)
  rw [parseItem, keyLine, List.takeWhile_append_of_pos hkey, List.dropWhile_append_of_pos hkey,
    List.takeWhile_cons_of_neg (by decide), List.dropWhile_cons_of_neg (by decide), List.append_nil]
  rfl

theorem tokens_itemsText {file : List (Text × Text)} (h : ∀ item ∈ file, PlainItem item) :
    tokens isNewline (itemsText file) = file.map keyLine := by
  induction file with
  | nil => exact tokens_nil _
  | cons item file ih =>
    have hline : ∀ b ∈ keyLine item, isNewline b = false := fun b hb =>
      beq_eq_false_iff_ne.mpr fun heq => (h item (List.mem_cons_self ..)).2 (heq ▸ hb)
    have hne : keyLine item ≠ [] := List.append_ne_nil_of_right_ne_nil _ (List.cons_ne_nil _ _)
    rw [itemsText, List.flatMap_cons, List.append_assoc, List.singleton_append,
      tokens_append _ _ (by decide : isNewline 10 = true), tokens_word hline hne, List.map_cons]
    exact congrArg _ (ih fun other hother => h other (List.mem_cons_of_mem _ hother))

def loadItems (data : Text) : Option (List (Text × Text)) :=
  match tokens isNewline data with
  | [] => none
  | header :: lines => if header = ascii "[Desktop Entry]" then some (lines.map parseItem) else none

def itemsData (file : List (Text × Text)) : Option Text :=
  if ∀ item ∈ file, PlainItem item then some (ascii "[Desktop Entry]\n" ++ itemsText file) else none

theorem loadItems_itemsData {file : List (Text × Text)} {data : Text} (h : itemsData file = some data) :
    loadItems data = some file := by
  rw [itemsData] at h
  split at h
  next hplain =>
    cases h
    have hheader : tokens isNewline (ascii "[Desktop Entry]\n" ++ itemsText file) =
        ascii "[Desktop Entry]" :: tokens isNewline (itemsText file) :=
      tokens_append (ascii "[Desktop Entry]") _ (by decide : isNewline 10 = true)
    have hitems : (file.map keyLine).map parseItem = file := by
      rw [List.map_map]
      exact (List.map_congr_left fun item hitem => parseItem_keyLine (hplain item hitem)).trans (List.map_id _)
    rw [loadItems, hheader]
    dsimp only
    rw [if_pos rfl, tokens_itemsText hplain, hitems]
  next => cases h

def setItem (file : List (Text × Text)) (key value : Text) : List (Text × Text) :=
  (file.filter fun item => item.1 != key) ++ [(key, value)]

theorem lookup_filter (file : List (Text × Text)) (key other : Text) :
    (file.filter fun item => item.1 != key).lookup other = if other = key then none else file.lookup other := by
  induction file with
  | nil => exact (ite_self _).symm
  | cons item file ih =>
    obtain ⟨first, value⟩ := item
    by_cases hkey : first = key
    · rw [List.filter_cons_of_neg (by simpa using hkey), ih, List.lookup_cons]
      by_cases hother : other = key
      · rw [if_pos hother, if_pos hother]
      · rw [if_neg hother, if_neg hother, beq_eq_false_iff_ne.mpr (hkey ▸ hother)]
    · rw [List.filter_cons_of_pos (by simpa using hkey), List.lookup_cons, List.lookup_cons, ih]
      by_cases hother : other = key
      · rw [if_pos hother, if_pos hother, hother, beq_eq_false_iff_ne.mpr (Ne.symm hkey)]
      · rw [if_neg hother, if_neg hother]

theorem lookup_setItem (file : List (Text × Text)) (key value other : Text) :
    (setItem file key value).lookup other = if other = key then some value else file.lookup other := by
  rw [setItem, List.lookup_append, lookup_filter, List.lookup_cons, List.lookup_nil]
  by_cases hother : other = key
  · rw [if_pos hother, if_pos hother, beq_iff_eq.mpr hother]
    rfl
  · rw [if_neg hother, if_neg hother, beq_eq_false_iff_ne.mpr hother]
    exact Option.or_none

def itemsKeyFile (file : List (Text × Text)) : KeyFile where
  string key := file.lookup key
  boolean key := (file.lookup key).bind parseBoolean

def setItemBoolean (file : List (Text × Text)) (key : Text) (value : Bool) : List (Text × Text) :=
  setItem file key (if value then ascii "true" else ascii "false")

theorem boolean_setItem (file : List (Text × Text)) (key : Text) (value : Bool) :
    (itemsKeyFile (setItemBoolean file key value)).boolean key = some value := by
  dsimp only [itemsKeyFile, setItemBoolean]
  rw [lookup_setItem, if_pos rfl]
  cases value <;> rfl

theorem string_setItem (file : List (Text × Text)) (key : Text) (value : Bool) (other : Text) (hother : other ≠ key) :
    (itemsKeyFile (setItemBoolean file key value)).string other = (itemsKeyFile file).string other := by
  dsimp only [itemsKeyFile, setItemBoolean]
  rw [lookup_setItem, if_neg hother]

theorem boolean_setItem_other (file : List (Text × Text)) (key : Text) (value : Bool) (other : Text)
    (hother : other ≠ key) :
    (itemsKeyFile (setItemBoolean file key value)).boolean other = (itemsKeyFile file).boolean other :=
  congrArg (Option.bind · parseBoolean) (string_setItem file key value other hother)

theorem loadItems_data (file : List (Text × Text)) (data : Text) (h : itemsData file = some data) :
    ∃ loaded, loadItems data = some loaded ∧ itemsKeyFile loaded = itemsKeyFile file :=
  ⟨file, loadItems_itemsData h, rfl⟩

/-- Files of one group, without comments. -/
def KeyFileLibrary.documented : KeyFileLibrary where
  File := List (Text × Text)
  keyFile := itemsKeyFile
  setBoolean := setItemBoolean
  toData := itemsData
  loadFromData := loadItems
  boolean_set := boolean_setItem
  boolean_other := boolean_setItem_other
  string_other := string_setItem
  loadFromData_toData := loadItems_data

end SystemMonitor.Desktop
