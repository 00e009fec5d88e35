import SystemMonitor.Smbios.Structures

/-! Tables written by the rules of the specification.

A structure is written as its formatted area of the stated length, then its strings,
each with a NUL, then the NUL that closes the set; a structure without strings ends
in two NULs. `EncodedTable.structures_eq` says that `structures` reads such a table
back, whatever follows the end-of-table structure. -/
namespace SystemMonitor.Smbios

/-! ### Where the strings end -/

theorem pairAt_cons {b : UInt8} (hb : b ≠ 0) {l : List UInt8} (hl : l ≠ []) : pairAt (b :: l) = pairAt l + 1 := by
  cases l with
  | nil => exact absurd rfl hl
  | cons c l =>
    rw [pairAt]
    exact if_neg fun h => hb h.1

theorem pairAt_word {word : Text} (hword : 0 ∉ word) {l : List UInt8} (hl : l ≠ []) :
    pairAt (word ++ l) = word.length + pairAt l := by
  induction word with
  | nil => rw [List.nil_append, List.length_nil, Nat.zero_add]
  | cons b word ih =>
    have hb : b ≠ 0 := fun h => hword (h ▸ List.mem_cons_self ..)
    rw [List.cons_append, pairAt_cons hb (List.append_ne_nil_of_right_ne_nil word hl),
      ih fun h => hword (List.mem_cons_of_mem b h), List.length_cons]
    omega

theorem pairAt_nul {b : UInt8} (hb : b ≠ 0) {l : List UInt8} : pairAt (0 :: b :: l) = pairAt (b :: l) + 1 := by
  rw [pairAt]
  exact if_neg fun h => hb h.2

/-- Texts that can stand in a set of strings. -/
def Writable (strings : List Text) : Prop := ∀ text ∈ strings, text ≠ [] ∧ 0 ∉ text

instance (strings : List Text) : Decidable (Writable strings) :=
  inferInstanceAs (Decidable (∀ text ∈ strings, text ≠ [] ∧ 0 ∉ text))

theorem head_intercalate {text : Text} (hne : text ≠ []) (hnul : 0 ∉ text) (strings : List Text) :
    ∃ b more, b ≠ 0 ∧ ([0].intercalate (text :: strings) : List UInt8) = b :: more := by
  cases text with
  | nil => exact absurd rfl hne
  | cons b text =>
    have hb : b ≠ 0 := fun h => hnul (h ▸ List.mem_cons_self ..)
    cases strings with
    | nil => exact ⟨b, text, hb, List.intercalate_singleton ..⟩
    | cons second strings => exact ⟨b, _, hb, List.intercalate_cons_cons ..⟩

/-- No pair of NULs stands before the one that closes the set. -/
theorem pairAt_strings {strings : List Text} (h : Writable strings) (rest : List UInt8) :
    pairAt ([0].intercalate strings ++ 0 :: 0 :: rest) = ([0].intercalate strings : List UInt8).length := by
  induction strings with
  | nil => rfl
  | cons text strings ih =>
    obtain ⟨hne, hnul⟩ := h text (List.mem_cons_self ..)
    cases strings with
    | nil =>
      rw [List.intercalate_singleton, pairAt_word hnul (List.cons_ne_nil _ _)]
      rfl
    | cons second strings =>
      have htail := ih fun text htext => h text (List.mem_cons_of_mem _ htext)
      obtain ⟨hsecond, hsecondNul⟩ := h second (List.mem_cons_of_mem _ (List.mem_cons_self ..))
      obtain ⟨b, more, hb, hmore⟩ := head_intercalate hsecond hsecondNul strings
      rw [hmore, List.cons_append] at htail
      rw [List.intercalate_cons_cons, hmore, List.append_assoc, List.append_assoc,
        pairAt_word hnul (List.append_ne_nil_of_left_ne_nil (List.cons_ne_nil _ _) _), List.cons_append,
        List.nil_append, List.cons_append, pairAt_nul hb, htail]
      simp only [List.length_append, List.length_cons, List.length_nil]
      omega

/-! ### One structure -/

structure Encoded where
  type : UInt8
  /-- What follows the type and the length. -/
  body : List UInt8
  strings : List Text
  long : 2 ≤ body.length
  short : body.length + 2 ≤ 255
  writable : Writable strings
  deriving DecidableEq

namespace Encoded

def formatted (e : Encoded) : List UInt8 := e.type :: (e.body.length + 2).toUInt8 :: e.body

def stringSet (e : Encoded) : List UInt8 :=
  if e.strings = [] then [0, 0] else e.strings.flatMap (fun text => text ++ [0]) ++ [0]

def bytes (e : Encoded) : List UInt8 := e.formatted ++ e.stringSet

/-- As the walk sees it. -/
def toStructure (e : Encoded) : Structure := ⟨e.formatted, [0].intercalate e.strings⟩

/-- The string the one-based index in a field selects; none if the field is not there. -/
def selected (e : Encoded) (k : Nat) : Option Text :=
  let stringIndex := (e.formatted[k]?).getD 0
  if stringIndex = 0 then none else e.strings[stringIndex.toNat - 1]?

theorem stringSet_eq (e : Encoded) : e.stringSet = [0].intercalate e.strings ++ [0, 0] := by
  unfold stringSet
  split
  · rename_i hnone
    rw [hnone]
    rfl
  · rename_i hsome
    have hjoined : ∀ strings : List Text, strings ≠ [] →
        strings.flatMap (fun text => text ++ [0]) = [0].intercalate strings ++ [0] := by
      intro strings hne
      induction strings with
      | nil => exact absurd rfl hne
      | cons text strings ih =>
        cases strings with
        | nil => rw [List.flatMap_cons, List.flatMap_nil, List.append_nil, List.intercalate_singleton]
        | cons second strings =>
          rw [List.flatMap_cons, ih (List.cons_ne_nil _ _), List.intercalate_cons_cons, List.append_assoc,
            List.append_assoc, List.append_assoc]
    rw [hjoined e.strings hsome, List.append_assoc]
    rfl

/-- **What was written is read back.** -/
theorem firstStructure_bytes (e : Encoded) (rest : List UInt8) :
    firstStructure (e.bytes ++ rest) = some (e.toStructure, rest) := by
  have hformatted : e.formatted.length = e.body.length + 2 := rfl
  have hlength : (((e.bytes ++ rest).getD 1 0)).toNat = e.formatted.length := by
    have hshort := e.short
    show ((e.body.length + 2).toUInt8).toNat = e.formatted.length
    rw [hformatted, UInt8.toNat_ofNat', Nat.mod_eq_of_lt (by omega)]
  have hlong := e.long
  have hstrings : (e.bytes ++ rest).drop e.formatted.length = [0].intercalate e.strings ++ 0 :: 0 :: rest := by
    rw [bytes, List.append_assoc, List.drop_left, stringSet_eq, List.append_assoc]
    rfl
  have htake : (e.bytes ++ rest).take e.formatted.length = e.formatted := by
    rw [bytes, List.append_assoc, List.take_left]
  have hpair := pairAt_strings e.writable rest
  rw [firstStructure, hlength, hstrings, htake, hpair]
  have hwhole : 4 ≤ e.formatted.length ∧ e.formatted.length ≤ (e.bytes ++ rest).length ∧
      ([0].intercalate e.strings : List UInt8).length + 1 < ([0].intercalate e.strings ++ 0 :: 0 :: rest).length := by
    refine ⟨by omega, ?_, ?_⟩
    · rw [bytes, List.length_append, List.length_append]
      omega
    · rw [List.length_append, List.length_cons, List.length_cons]
      omega
  rw [if_pos hwhole, List.take_left, List.drop_append, List.drop_of_length_le (by omega), Nat.add_sub_cancel_left]
  rfl

theorem structures_bytes {e : Encoded} (rest : List UInt8) : structures (e.bytes ++ rest) =
    if e.type = smbiosTypeEnd then [e.toStructure] else e.toStructure :: structures rest :=
  structures_some (e.firstStructure_bytes rest)

end Encoded

/-! ### A table -/

structure EncodedTable where
  structures : List Encoded
  /-- The end-of-table structure, and whatever stands behind it. -/
  last : Encoded
  rest : List UInt8
  types : ∀ e ∈ structures, e.type ≠ smbiosTypeEnd
  ends : last.type = smbiosTypeEnd
  size : (structures.flatMap Encoded.bytes ++ (last.bytes ++ rest)).length ≤ lsmDmiMaxBytes

namespace EncodedTable

def bytes (t : EncodedTable) : List UInt8 := t.structures.flatMap Encoded.bytes ++ (t.last.bytes ++ t.rest)

/-- **The walk finds what was written.** -/
theorem structures_eq (t : EncodedTable) :
    Smbios.structures t.bytes = t.structures.map Encoded.toStructure ++ [t.last.toStructure] := by
  have hrun : ∀ found : List Encoded, (∀ e ∈ found, e.type ≠ smbiosTypeEnd) →
      Smbios.structures (found.flatMap Encoded.bytes ++ (t.last.bytes ++ t.rest)) =
        found.map Encoded.toStructure ++ [t.last.toStructure] := by
    intro found hfound
    induction found with
    | nil =>
      rw [List.flatMap_nil, List.nil_append, Encoded.structures_bytes, if_pos t.ends]
      rfl
    | cons e found ih =>
      rw [List.flatMap_cons, List.append_assoc, Encoded.structures_bytes,
        if_neg (hfound e (List.mem_cons_self ..)), ih fun e he => hfound e (List.mem_cons_of_mem _ he)]
      rfl
  exact hrun t.structures t.types

end EncodedTable

end SystemMonitor.Smbios
