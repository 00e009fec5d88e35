import SystemMonitor.Lib.Once
import SystemMonitor.Procfs.Library

/-! Pressure stall records.

The parser takes a text apart at its newlines and each record at its blanks. What it
accepts is stated in `Grammar`: a terminated text with one `some` record and at most one
`full` record, each with its four measurements once.

`readFields_eq_some_iff`: the tokens of a record are read exactly when they are well
formed. -/
namespace SystemMonitor.Procfs
open Lib CStrings Once

structure PressureLine where
  avg10 : ℚ := 0
  avg60 : ℚ := 0
  avg300 : ℚ := 0
  totalUs : Nat := 0
  haveAvg10 : Bool := false
  haveAvg60 : Bool := false
  haveAvg300 : Bool := false
  haveTotal : Bool := false
  deriving DecidableEq

structure LsmPressureInfo where
  someAvg10 : ℚ := 0
  someAvg60 : ℚ := 0
  someAvg300 : ℚ := 0
  fullAvg10 : ℚ := 0
  fullAvg60 : ℚ := 0
  fullAvg300 : ℚ := 0
  someTotalUs : Nat := 0
  fullTotalUs : Nat := 0
  available : Bool := false
  fullAvailable : Bool := false
  deriving DecidableEq

/-- What separates the tokens of a record. -/
def isBlank (b : UInt8) : Bool := b == 32 || b == 9

/-- A token cut at its `=`; `none`: it is malformed. -/
def splitToken (token : Text) : Option (Text × Text) :=
  let name := token.takeWhile (· != 61)
  match token.dropWhile (· != 61) with
  | [] => none
  | _ :: value => if name = [] ∨ value = [] ∨ 61 ∈ value then none else some (name, value)

section
variable (lib : Library)

def takeToken (parsed : PressureLine) (token : Text) : Option PressureLine :=
  match splitToken token with
  | none => none
  | some (name, value) =>
    if name = ascii "avg10" then
      if parsed.haveAvg10 then none
      else (lib.parseDoubleRange 0 100 value).map fun number => { parsed with avg10 := number, haveAvg10 := true }
    else if name = ascii "avg60" then
      if parsed.haveAvg60 then none
      else (lib.parseDoubleRange 0 100 value).map fun number => { parsed with avg60 := number, haveAvg60 := true }
    else if name = ascii "avg300" then
      if parsed.haveAvg300 then none
      else (lib.parseDoubleRange 0 100 value).map fun number => { parsed with avg300 := number, haveAvg300 := true }
    else if name = ascii "total" then
      if parsed.haveTotal then none
      else (lib.parseU64 value).map fun total => { parsed with totalUs := total, haveTotal := true }
    else some parsed

def parsePressureLine (line kind : Text) : Option PressureLine :=
  match tokens isBlank line with
  | [] => none
  | first :: rest =>
    if first ≠ kind then none
    else (rest.foldlM (takeToken lib) {}).filter fun parsed =>
      parsed.haveAvg10 && parsed.haveAvg60 && parsed.haveAvg300 && parsed.haveTotal

/-- The three tests on the beginning of a line. -/
def isKind (line kind : Text) : Bool :=
  (kind ++ [32]).isPrefixOf line || (kind ++ [9]).isPrefixOf line || line == kind

structure PressureState where
  result : LsmPressureInfo := {}
  haveSome : Bool := false
  haveFull : Bool := false

def takeLine (s : PressureState) (line : Text) : Option PressureState :=
  let line := lib.trim line
  if line = [] then some s
  else if isKind line (ascii "some") then
    if s.haveSome then none
    else (parsePressureLine lib line (ascii "some")).map fun parsed =>
      { s with
        result := { s.result with
          someAvg10 := parsed.avg10, someAvg60 := parsed.avg60, someAvg300 := parsed.avg300
          someTotalUs := parsed.totalUs }
        haveSome := true }
  else if isKind line (ascii "full") then
    if s.haveFull then none
    else (parsePressureLine lib line (ascii "full")).map fun parsed =>
      { s with
        result := { s.result with
          fullAvg10 := parsed.avg10, fullAvg60 := parsed.avg60, fullAvg300 := parsed.avg300
          fullTotalUs := parsed.totalUs }
        haveFull := true }
  else some s

/-- The result and what stands in `*pressure` afterwards; `copied`: `strdup` had memory. -/
def lsmPressureParse (copied : Bool) (text : Text) : Bool × LsmPressureInfo :=
  if text = [] then (false, {})
  else if text.getLast? ≠ some 10 then (false, {})
  else if !copied then (false, {})
  else match (tokens (· == 10) text).foldlM (takeLine lib) {} with
    | none => (false, {})
    | some s =>
      if s.haveSome then (true, { s.result with available := true, fullAvailable := s.haveFull })
      else (false, {})

end

/-! ### The grammar -/

structure Measurements where
  avg10 : ℚ
  avg60 : ℚ
  avg300 : ℚ
  totalUs : Nat
  deriving DecidableEq

/-- A non-empty key and a non-empty value with a single `=`. -/
structure Field (token key value : Text) : Prop where
  eq : token = key ++ 61 :: value
  key_ne : key ≠ []
  value_ne : value ≠ []
  key_plain : 61 ∉ key
  value_plain : 61 ∉ value

/-- What stands behind `key=`, for the tokens that begin so. -/
def valuesOf (key : Text) (tokens : List Text) : List Text :=
  tokens.filterMap fun token => if (key ++ [61]).isPrefixOf token then some (token.drop (key.length + 1)) else none

/-- The tokens of a record with its measurements. -/
structure Record (lib : Library) (fields : List Text) (m : Measurements) : Prop where
  formed : ∀ token ∈ fields, ∃ key value, Field token key value
  avg10 : ∃ value, valuesOf (ascii "avg10") fields = [value] ∧ lib.parseDoubleRange 0 100 value = some m.avg10
  avg60 : ∃ value, valuesOf (ascii "avg60") fields = [value] ∧ lib.parseDoubleRange 0 100 value = some m.avg60
  avg300 : ∃ value, valuesOf (ascii "avg300") fields = [value] ∧ lib.parseDoubleRange 0 100 value = some m.avg300
  total : ∃ value, valuesOf (ascii "total") fields = [value] ∧ Decimal.parse value = some m.totalUs ∧
    m.totalUs ≤ uint64Max

/-- The trimmed lines that are not blank. -/
def recordsIn (lib : Library) (text : Text) : List Text :=
  ((text.splitOnP (· == 10)).map lib.trim).filter fun line => !line.isEmpty

/-- The tokens behind the first word, for the records that begin with `kind`. -/
def recordsOf (lib : Library) (kind text : Text) : List (List Text) :=
  (recordsIn lib text).filterMap fun line =>
    match tokens isBlank line with
    | [] => none
    | first :: fields => if first = kind then some fields else none

structure Grammar (lib : Library) (text : Text) (someRecord : Measurements) (fullRecord : Option Measurements) : Prop where
  terminated : text.getLast? = some 10
  some_once : ∃ fields, recordsOf lib (ascii "some") text = [fields] ∧ Record lib fields someRecord
  full_once : recordsOf lib (ascii "full") text = [] ∧ fullRecord = none ∨
    ∃ fields m, recordsOf lib (ascii "full") text = [fields] ∧ Record lib fields m ∧ fullRecord = some m

/-- What the measurements of the two records amount to. -/
def published (someRecord : Measurements) (fullRecord : Option Measurements) : LsmPressureInfo where
  someAvg10 := someRecord.avg10
  someAvg60 := someRecord.avg60
  someAvg300 := someRecord.avg300
  someTotalUs := someRecord.totalUs
  fullAvg10 := (fullRecord.map (·.avg10)).getD 0
  fullAvg60 := (fullRecord.map (·.avg60)).getD 0
  fullAvg300 := (fullRecord.map (·.avg300)).getD 0
  fullTotalUs := (fullRecord.map (·.totalUs)).getD 0
  available := true
  fullAvailable := fullRecord.isSome

/-! ### The tokens of a record -/

inductive Measure where
  | avg10
  | avg60
  | avg300
  | total
  deriving DecidableEq

def Measure.Value : Measure → Type
  | .total => Nat
  | _ => ℚ

def Measure.name : Measure → Text
  | .avg10 => ascii "avg10"
  | .avg60 => ascii "avg60"
  | .avg300 => ascii "avg300"
  | .total => ascii "total"

def Measure.read (lib : Library) : (m : Measure) → Text → Option m.Value
  | .avg10, value => lib.parseDoubleRange 0 100 value
  | .avg60, value => lib.parseDoubleRange 0 100 value
  | .avg300, value => lib.parseDoubleRange 0 100 value
  | .total, value => lib.parseU64 value

def measureNamed (name : Text) : Option Measure :=
  if name = ascii "avg10" then some .avg10
  else if name = ascii "avg60" then some .avg60
  else if name = ascii "avg300" then some .avg300
  else if name = ascii "total" then some .total
  else none

theorem measureNamed_eq_some_iff {name : Text} {m : Measure} : measureNamed name = some m ↔ name = m.name := by
  constructor
  · intro h
    unfold measureNamed at h
    split at h
    · cases h
      assumption
    · split at h
      · cases h
        assumption
      · split at h
        · cases h
          assumption
        · split at h
          · cases h
            assumption
          · cases h
  · intro h
    subst h
    cases m <;> rfl

theorem Measure.name_injective {m m' : Measure} (h : m.name = m'.name) : m = m' :=
  Option.some.inj ((measureNamed_eq_some_iff.mpr rfl).symm.trans (measureNamed_eq_some_iff.mpr h))

theorem Measure.name_plain (m : Measure) : m.name ≠ [] ∧ 61 ∉ m.name := by
  cases m <;> exact ⟨by decide, by decide⟩

/-- A token as a reading of the record's four slots. -/
def tokenReading (lib : Library) (token : Text) : Reading Measure Measure.Value :=
  match splitToken token with
  | none => .bad
  | some (name, value) =>
    match measureNamed name with
    | none => .skip
    | some m =>
      match m.read lib value with
      | none => .bad
      | some x => .put m x

def lineOf (slots : Slots Measure Measure.Value) : PressureLine where
  avg10 := (slots .avg10).getD (0 : ℚ)
  avg60 := (slots .avg60).getD (0 : ℚ)
  avg300 := (slots .avg300).getD (0 : ℚ)
  totalUs := (slots .total).getD (0 : Nat)
  haveAvg10 := (slots .avg10).isSome
  haveAvg60 := (slots .avg60).isSome
  haveAvg300 := (slots .avg300).isSome
  haveTotal := (slots .total).isSome

theorem splitToken_eq_some_iff {token key value : Text} : splitToken token = some (key, value) ↔
    Field token key value := by
  constructor
  · intro h
    have hsplit := List.takeWhile_append_dropWhile (p := fun b : UInt8 => b != 61) (l := token)
    have hplain : 61 ∉ token.takeWhile (· != 61) := fun hmem => absurd (List.mem_takeWhile_imp hmem) (by decide)
    unfold splitToken at h
    split at h
    · cases h
    · rename_i _ b rest hrest
      dsimp only at h
      split at h
      · cases h
      · rename_i hgood
        cases h
        rw [not_or, not_or] at hgood
        have hb : b = 61 := by
          have hne : token.dropWhile (· != 61) ≠ [] := by rw [hrest]; exact List.cons_ne_nil _ _
          have hhead := List.head_dropWhile_not (fun b : UInt8 => b != 61) hne
          simpa only [hrest, List.head_cons, bne_eq_false_iff_eq] using hhead
        rw [hrest, hb] at hsplit
        exact ⟨hsplit.symm, hgood.1, hgood.2.1, hplain, hgood.2.2⟩
  · intro h
    have hall : ∀ b ∈ key, (b != 61) = true := fun b hb => bne_iff_ne.mpr fun heq => h.key_plain (heq ▸ hb)
    have htake : token.takeWhile (· != 61) = key := by
      rw [h.eq, List.takeWhile_append_of_pos hall, List.takeWhile_cons_of_neg (by decide), List.append_nil]
    have hdrop : token.dropWhile (· != 61) = 61 :: value := by
      rw [h.eq, List.dropWhile_append_of_pos hall, List.dropWhile_cons_of_neg (by decide)]
    unfold splitToken
    rw [hdrop, htake]
    simp only [h.key_ne, h.value_ne, h.value_plain, or_self, if_false]

theorem fill_read (lib : Library) (slots : Slots Measure Measure.Value) (m : Measure) (value : Text) :
    fill slots (match m.read lib value with
      | none => .bad
      | some x => .put m x) =
      if (slots m).isSome then none else (m.read lib value).map fun x => Function.update slots m (some x) := by
  cases m.read lib value with
  | none => simp [Once.fill]
  | some x => rfl

/-- Each branch fills one slot. -/
theorem takeToken_lineOf (lib : Library) (slots : Slots Measure Measure.Value) (token : Text) :
    takeToken lib (lineOf slots) token = (fill slots (tokenReading lib token)).map lineOf := by
  unfold takeToken tokenReading
  cases splitToken token with
  | none => rfl
  | some cut =>
    obtain ⟨name, value⟩ := cut
    dsimp only
    cases hm : measureNamed name with
    | none =>
      have hname : ∀ m : Measure, name ≠ m.name := by
        intro m heq
        rw [measureNamed_eq_some_iff.mpr heq] at hm
        cases hm
      have h10 : name ≠ ascii "avg10" := hname .avg10
      have h60 : name ≠ ascii "avg60" := hname .avg60
      have h300 : name ≠ ascii "avg300" := hname .avg300
      have htotal : name ≠ ascii "total" := hname .total
      rw [if_neg h10, if_neg h60, if_neg h300, if_neg htotal]
      rfl
    | some m =>
      dsimp only
      rw [fill_read, apply_ite (Option.map lineOf), Option.map_none, Option.map_map]
      rcases measureNamed_eq_some_iff.mp hm with rfl
      cases m with
      | avg10 =>
        rw [Measure.name, if_pos rfl]
        rfl
      | avg60 =>
        rw [Measure.name, if_neg (by decide), if_pos rfl]
        rfl
      | avg300 =>
        rw [Measure.name, if_neg (by decide), if_neg (by decide), if_pos rfl]
        rfl
      | total =>
        rw [Measure.name, if_neg (by decide), if_neg (by decide), if_neg (by decide), if_pos rfl]
        rfl

theorem foldlM_takeToken (lib : Library) (slots : Slots Measure Measure.Value) (fields : List Text) :
    fields.foldlM (takeToken lib) (lineOf slots) =
      (fillAll slots (fields.map (tokenReading lib))).map lineOf := by
  induction fields generalizing slots with
  | nil => rfl
  | cons token rest ih =>
    rw [List.foldlM_cons, takeToken_lineOf, List.map_cons, fillAll]
    cases fill slots (tokenReading lib token) with
    | none => rfl
    | some filled => exact ih filled

/-- What a formed token says to the slot of a measure. -/
theorem valueFor_tokenReading (lib : Library) {token key value : Text} (h : Field token key value) (m : Measure) :
    (tokenReading lib token).valueFor m = if key = m.name then m.read lib value else none := by
  unfold tokenReading
  rw [splitToken_eq_some_iff.mpr h]
  dsimp only
  cases hm : measureNamed key with
  | none =>
    rw [if_neg]
    · rfl
    · intro heq
      rw [measureNamed_eq_some_iff.mpr heq] at hm
      cases hm
  | some m' =>
    rw [measureNamed_eq_some_iff] at hm
    dsimp only
    by_cases hmm : m' = m
    · subst hmm
      rw [if_pos hm]
      cases m'.read lib value with
      | none => rfl
      | some x => exact valueFor_put_self m' x
    · rw [if_neg fun heq => hmm (Measure.name_injective (hm.symm.trans heq))]
      cases m'.read lib value with
      | none => rfl
      | some x => exact valueFor_put_ne hmm x

/-- A token is an error when it is malformed or gives a measure a value that does not parse. -/
theorem tokenReading_ne_bad_iff (lib : Library) (token : Text) : tokenReading lib token ≠ .bad ↔
    ∃ key value, Field token key value ∧ ∀ m : Measure, key = m.name → (m.read lib value).isSome := by
  unfold tokenReading
  cases hcut : splitToken token with
  | none =>
    constructor
    · intro h
      exact absurd rfl h
    · intro h
      obtain ⟨key, value, hfield, -⟩ := h
      rw [splitToken_eq_some_iff.mpr hfield] at hcut
      cases hcut
  | some cut =>
    obtain ⟨key, value⟩ := cut
    have hfield := splitToken_eq_some_iff.mp hcut
    have honly : (∃ k v, Field token k v ∧ ∀ m : Measure, k = m.name → (m.read lib v).isSome) ↔
        ∀ m : Measure, key = m.name → (m.read lib value).isSome := by
      constructor
      · intro h
        obtain ⟨k, v, hkv, hall⟩ := h
        have heq := (splitToken_eq_some_iff.mpr hkv).symm.trans hcut
        cases heq
        exact hall
      · exact fun h => ⟨key, value, hfield, h⟩
    rw [honly]
    dsimp only
    cases hm : measureNamed key with
    | none =>
      refine ⟨fun _ m heq => ?_, fun _ => by simp⟩
      rw [measureNamed_eq_some_iff.mpr heq] at hm
      cases hm
    | some m =>
      have hname := measureNamed_eq_some_iff.mp hm
      dsimp only
      constructor
      · intro h m' heq
        obtain rfl := Measure.name_injective (hname.symm.trans heq)
        cases hread : m.read lib value with
        | none =>
          rw [hread] at h
          exact absurd rfl h
        | some x => rfl
      · intro h
        obtain ⟨x, hx⟩ := Option.isSome_iff_exists.mp (h m hname)
        rw [hx]
        simp

theorem startsWith_field_iff {name token key value : Text} (hplain : 61 ∉ name) (h : Field token key value) :
    (name ++ [61]).isPrefixOf token = true ↔ key = name := by
  rw [List.isPrefixOf_iff_prefix]
  constructor
  · intro hstart
    obtain ⟨rest, hrest⟩ := hstart
    have hall : ∀ {t : Text}, 61 ∉ t → ∀ b ∈ t, (b != 61) = true := fun ht b hb => bne_iff_ne.mpr fun heq => ht (heq ▸ hb)
    have hcut : ∀ {t u : Text}, 61 ∉ t → (t ++ 61 :: u).takeWhile (· != 61) = t := by
      intro t u ht
      rw [List.takeWhile_append_of_pos (hall ht), List.takeWhile_cons_of_neg (by decide), List.append_nil]
    rw [List.append_assoc, List.singleton_append] at hrest
    rw [← hcut (u := value) h.key_plain, ← h.eq, ← hrest, hcut hplain]
  · intro heq
    exact ⟨value, by rw [h.eq, heq, List.append_assoc, List.singleton_append]⟩

theorem valuesOf_cons {name token key value : Text} (hplain : 61 ∉ name) (h : Field token key value)
    (rest : List Text) :
    valuesOf name (token :: rest) = if key = name then value :: valuesOf name rest else valuesOf name rest := by
  rw [valuesOf, List.filterMap_cons]
  by_cases heq : key = name
  · have hdrop : token.drop (name.length + 1) = value := by
      rw [h.eq, heq, List.drop_append, List.drop_of_length_le (by omega)]
      simp
    rw [if_pos ((startsWith_field_iff hplain h).mpr heq), if_pos heq, hdrop]
    rfl
  · rw [if_neg fun hstart => heq ((startsWith_field_iff hplain h).mp hstart), if_neg heq]
    rfl

/-- The slot of a measure gets the values of its key. -/
theorem valuesFor_map (lib : Library) {fields : List Text}
    (hformed : ∀ token ∈ fields, ∃ key value, Field token key value) (m : Measure) :
    valuesFor m (fields.map (tokenReading lib)) = (valuesOf m.name fields).filterMap (m.read lib) := by
  induction fields with
  | nil => rfl
  | cons token rest ih =>
    obtain ⟨key, value, hfield⟩ := hformed token (List.mem_cons_self ..)
    rw [List.map_cons, valuesFor_cons, valueFor_tokenReading lib hfield, valuesOf_cons m.name_plain.2 hfield,
      ih fun t ht => hformed t (List.mem_cons_of_mem token ht)]
    by_cases heq : key = m.name
    · rw [if_pos heq, if_pos heq, List.filterMap_cons]
      cases m.read lib value <;> rfl
    · rw [if_neg heq, if_neg heq]
      rfl

theorem mem_valuesOf {fields : List Text} {token key value : Text} (hmem : token ∈ fields)
    (h : Field token key value) : value ∈ valuesOf key fields := by
  refine List.mem_filterMap.mpr ⟨token, hmem, ?_⟩
  rw [if_pos ((startsWith_field_iff h.key_plain h).mpr rfl), h.eq, List.drop_append,
    List.drop_of_length_le (by omega)]
  simp

def slotsOf (m : Measurements) : Slots Measure Measure.Value
  | .avg10 => some m.avg10
  | .avg60 => some m.avg60
  | .avg300 => some m.avg300
  | .total => some m.totalUs

/-- The value in the record of a measure. -/
theorem record_iff_slots (lib : Library) (fields : List Text) (m : Measurements) :
    Record lib fields m ↔ (∀ token ∈ fields, ∃ key value, Field token key value) ∧
      ∀ k : Measure, ∃ value, valuesOf k.name fields = [value] ∧ k.read lib value = slotsOf m k := by
  have htotal : ∀ value, lib.parseU64 value = some m.totalUs ↔
      Decimal.parse value = some m.totalUs ∧ m.totalUs ≤ uint64Max := by
    intro value
    rw [lib.parseU64_eq, Option.filter_eq_some_iff, decide_eq_true_iff]
  constructor
  · intro h
    refine ⟨h.formed, fun k => ?_⟩
    cases k with
    | avg10 => exact h.avg10
    | avg60 => exact h.avg60
    | avg300 => exact h.avg300
    | total =>
      obtain ⟨value, hvalue, hread⟩ := h.total
      exact ⟨value, hvalue, (htotal value).mpr hread⟩
  · intro h
    obtain ⟨value, hvalue, hread⟩ := h.2 .total
    exact ⟨h.1, h.2 .avg10, h.2 .avg60, h.2 .avg300, value, hvalue, (htotal value).mp hread⟩

/-- A record is what fills every slot once. -/
theorem record_iff_fillAll (lib : Library) (fields : List Text) (m : Measurements) :
    Record lib fields m ↔ fillAll (fun _ => none) (fields.map (tokenReading lib)) = some (slotsOf m) := by
  have hsome : ∀ k, ∃ x, slotsOf m k = some x := by
    intro k
    cases k <;> exact ⟨_, rfl⟩
  rw [record_iff_slots, fillAll_eq_some_iff]
  constructor
  · intro h
    obtain ⟨hformed, hvalues⟩ := h
    refine ⟨fun r hr => ?_, fun k => ?_⟩
    · obtain ⟨token, htoken, rfl⟩ := List.mem_map.mp hr
      obtain ⟨key, value, hfield⟩ := hformed token htoken
      refine (tokenReading_ne_bad_iff lib token).mpr ⟨key, value, hfield, fun k heq => ?_⟩
      obtain ⟨v, hv, hread⟩ := hvalues k
      have hmem := mem_valuesOf htoken hfield
      rw [heq, hv, List.mem_singleton] at hmem
      obtain ⟨x, hx⟩ := hsome k
      rw [hmem, hread, hx]
      rfl
    · obtain ⟨v, hv, hread⟩ := hvalues k
      obtain ⟨x, hx⟩ := hsome k
      rw [valuesFor_map lib hformed, hv, List.filterMap_cons, hread, hx]
      rfl
  · intro h
    obtain ⟨hgood, hvalues⟩ := h
    have hread : ∀ token ∈ fields, ∃ key value, Field token key value ∧
        ∀ k : Measure, key = k.name → (k.read lib value).isSome := fun token htoken =>
      (tokenReading_ne_bad_iff lib token).mp (hgood _ (List.mem_map_of_mem htoken))
    have hformed : ∀ token ∈ fields, ∃ key value, Field token key value := by
      intro token htoken
      obtain ⟨key, value, hfield, -⟩ := hread token htoken
      exact ⟨key, value, hfield⟩
    refine ⟨hformed, fun k => ?_⟩
    obtain ⟨x, hx⟩ := hsome k
    have hk := hvalues k
    -- no value of the key is lost, since each of them parses
    have hparse : ∀ v ∈ valuesOf k.name fields, (k.read lib v).isSome := by
      intro v hv
      obtain ⟨token, htoken, hvalue⟩ := List.mem_filterMap.mp hv
      obtain ⟨key, value, hfield, hall⟩ := hread token htoken
      split at hvalue
      · rename_i hstart
        have heq := (startsWith_field_iff k.name_plain.2 hfield).mp hstart
        cases hvalue
        rw [hfield.eq, heq, List.drop_append, List.drop_of_length_le (by omega)]
        simpa using hall k heq
      · cases hvalue
    rw [valuesFor_map lib hformed, hx, Option.toList_none, List.nil_append, Option.toList_some] at hk
    obtain ⟨v, hv, hread⟩ := (filterMap_eq_singleton_iff hparse).mp hk
    exact ⟨v, hv, hread.trans hx.symm⟩

/-- The measurements of four full slots. -/
def measurementsIn (slots : Slots Measure Measure.Value) : Option Measurements :=
  match slots .avg10, slots .avg60, slots .avg300, slots .total with
  | some a, some b, some c, some t => some ⟨a, b, c, t⟩
  | _, _, _, _ => none

theorem measurementsIn_eq_some_iff {slots : Slots Measure Measure.Value} {m : Measurements} :
    measurementsIn slots = some m ↔ slots = slotsOf m := by
  constructor
  · intro h
    unfold measurementsIn at h
    split at h
    · rename_i h10 h60 h300 htotal
      cases h
      funext k
      cases k <;> assumption
    · cases h
  · intro h
    rw [h]
    rfl

/-- The tokens of a record as the parser reads them. -/
def readFields (lib : Library) (fields : List Text) : Option Measurements :=
  (fillAll (fun _ => none) (fields.map (tokenReading lib))).bind measurementsIn

/-- **A record is read exactly when it is well formed.** -/
theorem readFields_eq_some_iff (lib : Library) (fields : List Text) (m : Measurements) :
    readFields lib fields = some m ↔ Record lib fields m := by
  rw [record_iff_fillAll, readFields, Option.bind_eq_some_iff]
  constructor
  · intro h
    obtain ⟨slots, hslots, hm⟩ := h
    rw [hslots, measurementsIn_eq_some_iff.mp hm]
  · exact fun h => ⟨slotsOf m, h, rfl⟩

def PressureLine.measurements (parsed : PressureLine) : Measurements :=
  ⟨parsed.avg10, parsed.avg60, parsed.avg300, parsed.totalUs⟩

theorem parsePressureLine_eq (lib : Library) {line first : Text} {fields : List Text}
    (h : tokens isBlank line = first :: fields) :
    (parsePressureLine lib line first).map PressureLine.measurements = readFields lib fields := by
  unfold parsePressureLine readFields
  rw [h]
  dsimp only
  have hstart : ({} : PressureLine) = lineOf fun _ => none := rfl
  rw [if_neg (not_not.mpr rfl), hstart, foldlM_takeToken]
  cases fillAll (fun _ => none) (fields.map (tokenReading lib)) with
  | none => rfl
  | some filled =>
    rw [Option.map_some, Option.bind_some]
    unfold measurementsIn
    cases h10 : filled .avg10 <;> cases h60 : filled .avg60 <;> cases h300 : filled .avg300 <;>
      cases htotal : filled .total <;> simp [lineOf, PressureLine.measurements, h10, h60, h300, htotal]
    rfl

end SystemMonitor.Procfs
