import SystemMonitor.Procfs.Pressure

/-! Pressure texts, line by line.

A line is a reading of one of two slots, so that the parser's loop is `fillAll` over the
lines.

`lsm_pressure_parse_iff`: the parser accepts the grammar and nothing else, publishes the
values of the tokens or all zero, and depends neither on the order of tokens and lines
nor on unknown keys and records. -/
namespace SystemMonitor.Procfs
open Lib CStrings Once

/-! ### The lines of a text -/

inductive RecordKind where
  | stallSome
  | stallFull
  deriving DecidableEq

def lineReading (lib : Library) (line : Text) : Reading RecordKind fun _ => Measurements :=
  match tokens isBlank (lib.trim line) with
  | [] => .skip
  | first :: fields =>
    if first = ascii "some" then
      match readFields lib fields with
      | none => .bad
      | some m => .put .stallSome m
    else if first = ascii "full" then
      match readFields lib fields with
      | none => .bad
      | some m => .put .stallFull m
    else .skip

abbrev Records := Slots RecordKind fun _ => Measurements

def stateOf (slots : Records) : PressureState where
  result :=
    { someAvg10 := ((slots .stallSome).map (·.avg10)).getD 0
      someAvg60 := ((slots .stallSome).map (·.avg60)).getD 0
      someAvg300 := ((slots .stallSome).map (·.avg300)).getD 0
      someTotalUs := ((slots .stallSome).map (·.totalUs)).getD 0
      fullAvg10 := ((slots .stallFull).map (·.avg10)).getD 0
      fullAvg60 := ((slots .stallFull).map (·.avg60)).getD 0
      fullAvg300 := ((slots .stallFull).map (·.avg300)).getD 0
      fullTotalUs := ((slots .stallFull).map (·.totalUs)).getD 0 }
  haveSome := (slots .stallSome).isSome
  haveFull := (slots .stallFull).isSome

/-- On a line that does not begin with a blank, the three tests look at the first word. -/
theorem isKind_iff {line kind first : Text} {fields : List Text}
    (hkind : ∀ b ∈ kind, isBlank b = false) (hstart : ∀ b, line.head? = some b → isBlank b = false)
    (h : tokens isBlank line = first :: fields) : isKind line kind = true ↔ first = kind := by
  have hword : first = line.takeWhile fun b => !isBlank b := by
    have hdrop : line.dropWhile isBlank = line := by
      cases line with
      | nil => rfl
      | cons b rest => rw [List.dropWhile_cons_of_neg (by rw [hstart b rfl]; decide)]
    rw [tokens_eq, hdrop] at h
    split at h
    · cases h
    · exact (List.cons.inj h).1.symm
  have htake : ∀ {b : UInt8} {rest : Text}, isBlank b = true →
      (kind ++ b :: rest).takeWhile (fun b => !isBlank b) = kind := by
    intro b rest hb
    have hall : ∀ c ∈ kind, (!isBlank c) = true := fun c hc => by rw [hkind c hc]; rfl
    rw [List.takeWhile_append_of_pos hall, List.takeWhile_cons_of_neg (by rw [hb]; decide), List.append_nil]
  rw [isKind, Bool.or_eq_true, Bool.or_eq_true, List.isPrefixOf_iff_prefix, List.isPrefixOf_iff_prefix, beq_iff_eq,
    hword]
  constructor
  · intro hkinds
    rcases hkinds with (hspace | htab) | heq
    · obtain ⟨rest, rfl⟩ := hspace
      rw [List.append_assoc, List.singleton_append]
      exact htake rfl
    · obtain ⟨rest, rfl⟩ := htab
      rw [List.append_assoc, List.singleton_append]
      exact htake rfl
    · rw [heq, List.takeWhile_eq_self_iff]
      exact fun b hb => by rw [hkind b hb]; rfl
  · intro heq
    have hsplit := List.takeWhile_append_dropWhile (p := fun b => !isBlank b) (l := line)
    rw [heq] at hsplit
    cases hend : line.dropWhile (fun b => !isBlank b) with
    | nil =>
      rw [hend, List.append_nil] at hsplit
      exact Or.inr hsplit.symm
    | cons b rest =>
      have hb : isBlank b = true := by
        have hne : line.dropWhile (fun b => !isBlank b) ≠ [] := by rw [hend]; exact List.cons_ne_nil b rest
        have hhead := List.head_dropWhile_not (fun b => !isBlank b) hne
        simpa only [hend, List.head_cons, Bool.not_eq_false'] using hhead
      rw [hend] at hsplit
      rw [isBlank, Bool.or_eq_true, beq_iff_eq, beq_iff_eq] at hb
      rcases hb with rfl | rfl
      · exact Or.inl (Or.inl ⟨rest, by rw [List.append_assoc, List.singleton_append, hsplit]⟩)
      · exact Or.inl (Or.inr ⟨rest, by rw [List.append_assoc, List.singleton_append, hsplit]⟩)

theorem isBlank_isSpace (lib : Library) {b : UInt8} (h : isBlank b = true) : lib.asciiIsSpace b = true := by
  rw [isBlank, Bool.or_eq_true, beq_iff_eq, beq_iff_eq] at h
  rw [lib.asciiIsSpace_iff]
  rcases h with rfl | rfl
  · exact Or.inl rfl
  · exact Or.inr (by decide)

theorem head_trim (lib : Library) (line : Text) : ∀ b, (lib.trim line).head? = some b → isBlank b = false := by
  intro b hb
  cases hline : lib.trim line with
  | nil =>
    rw [hline] at hb
    cases hb
  | cons c rest =>
    rw [hline] at hb
    cases hb
    rw [lib.trim_eq] at hline
    have hspace := head_trimmed hline
    cases hblank : isBlank b with
    | false => rfl
    | true =>
      rw [isBlank_isSpace lib hblank] at hspace
      cases hspace

theorem tokens_trim_eq_nil (lib : Library) (line : Text) : tokens isBlank (lib.trim line) = [] ↔ lib.trim line = [] := by
  constructor
  · intro h
    cases hline : lib.trim line with
    | nil => rfl
    | cons b rest =>
      have hb := head_trim lib line b (by rw [hline]; rfl)
      rw [hline, tokens_eq, List.dropWhile_cons_of_neg (by rw [hb]; decide), if_neg (List.cons_ne_nil b rest)] at h
      cases h
  · intro h
    rw [h]
    exact tokens_nil isBlank

/-- One line fills one slot. -/
theorem takeLine_stateOf (lib : Library) (slots : Records) (line : Text) :
    takeLine lib (stateOf slots) line = (fill slots (lineReading lib line)).map stateOf := by
  unfold takeLine lineReading
  dsimp only
  cases htokens : tokens isBlank (lib.trim line) with
  | nil =>
    rw [if_pos ((tokens_trim_eq_nil lib line).mp htokens)]
    rfl
  | cons first fields =>
    have hne : lib.trim line ≠ [] := by
      intro hnil
      rw [(tokens_trim_eq_nil lib line).mpr hnil] at htokens
      cases htokens
    have hsome := isKind_iff (show ∀ b ∈ ascii "some", isBlank b = false by decide +kernel) (head_trim lib line) htokens
    have hfull := isKind_iff (show ∀ b ∈ ascii "full", isBlank b = false by decide +kernel) (head_trim lib line) htokens
    rw [if_neg hne]
    dsimp only
    by_cases h1 : first = ascii "some"
    · have hread := parsePressureLine_eq lib htokens
      rw [h1] at hread
      rw [if_pos (hsome.mpr h1), if_pos h1, ← hread]
      cases hslot : slots .stallSome <;> cases parsePressureLine lib (lib.trim line) (ascii "some") <;>
        simp [stateOf, Once.fill, hslot, PressureLine.measurements]
    · rw [if_neg fun h => h1 (hsome.mp h), if_neg h1]
      by_cases h2 : first = ascii "full"
      · have hread := parsePressureLine_eq lib htokens
        rw [h2] at hread
        rw [if_pos (hfull.mpr h2), if_pos h2, ← hread]
        cases hslot : slots .stallFull <;> cases parsePressureLine lib (lib.trim line) (ascii "full") <;>
          simp [stateOf, Once.fill, hslot, PressureLine.measurements]
      · rw [if_neg fun h => h2 (hfull.mp h), if_neg h2]
        rfl

theorem foldlM_takeLine (lib : Library) (slots : Records) (lines : List Text) :
    lines.foldlM (takeLine lib) (stateOf slots) = (fillAll slots (lines.map (lineReading lib))).map stateOf := by
  induction lines generalizing slots with
  | nil => rfl
  | cons line rest ih =>
    rw [List.foldlM_cons, takeLine_stateOf, List.map_cons, fillAll]
    cases fill slots (lineReading lib line) with
    | none => rfl
    | some filled => exact ih filled

/-- What is published of the two slots. -/
def outcome (slots : Option Records) : Bool × LsmPressureInfo :=
  match slots with
  | none => (false, {})
  | some slots =>
    match slots .stallSome with
    | none => (false, {})
    | some m => (true, published m (slots .stallFull))

theorem lineReading_nil (lib : Library) : lineReading lib [] = .skip := by
  unfold lineReading
  rw [lib.trim_eq]
  rfl

/-- The parser on a terminated text. -/
theorem lsmPressureParse_eq (lib : Library) {text : Text} (h : text.getLast? = some 10) :
    lsmPressureParse lib true text =
      outcome (fillAll (fun _ => none) ((tokens (· == 10) text).map (lineReading lib))) := by
  have hne : text ≠ [] := by
    intro hnil
    rw [hnil] at h
    cases h
  have hstart : ({} : PressureState) = stateOf fun _ => none := rfl
  unfold lsmPressureParse
  rw [if_neg hne, if_neg (not_not.mpr h), if_neg (by decide), hstart, foldlM_takeLine]
  cases fillAll (fun _ => none) ((tokens (· == 10) text).map (lineReading lib)) with
  | none => rfl
  | some slots =>
    rw [Option.map_some]
    unfold outcome
    cases hslot : slots .stallSome with
    | none => simp [stateOf, hslot]
    | some m => simp [stateOf, hslot, published]

theorem lsmPressureParse_torn (lib : Library) {copied : Bool} {text : Text} (h : text.getLast? ≠ some 10) :
    lsmPressureParse lib copied text = (false, {}) := by
  unfold lsmPressureParse
  split
  · rfl
  · rfl

/-! ### The records of the two kinds -/

def RecordKind.name : RecordKind → Text
  | .stallSome => ascii "some"
  | .stallFull => ascii "full"

/-- The tokens of a line that is a record of a kind. -/
def fieldsIn (lib : Library) (kind line : Text) : Option (List Text) :=
  match tokens isBlank (lib.trim line) with
  | [] => none
  | first :: fields => if first = kind then some fields else none

theorem recordsOf_eq (lib : Library) (kind text : Text) :
    recordsOf lib kind text = (tokens (· == 10) text).filterMap (fieldsIn lib kind) := by
  have hnil : fieldsIn lib kind [] = none := by
    unfold fieldsIn
    rw [lib.trim_eq]
    rfl
  rw [recordsOf, recordsIn, tokens, List.filterMap_filter, List.filterMap_filter, List.filterMap_map]
  apply List.filterMap_congr
  intro line _
  dsimp only [Function.comp]
  cases hline : line with
  | nil =>
    rw [lib.trim_eq]
    rfl
  | cons b rest =>
    rw [← hline]
    have hkeep : (!line.isEmpty) = true := by rw [hline]; rfl
    rw [if_pos hkeep]
    unfold fieldsIn
    by_cases hblank : lib.trim line = []
    · rw [hblank]
      rfl
    · exact (if_pos (by simpa using hblank)).trans rfl

theorem valueFor_lineReading (lib : Library) (kind : RecordKind) (line : Text) :
    (lineReading lib line).valueFor kind = (fieldsIn lib kind.name line).bind (readFields lib) := by
  unfold lineReading fieldsIn
  cases tokens isBlank (lib.trim line) with
  | nil => rfl
  | cons first fields =>
    dsimp only
    by_cases h1 : first = ascii "some"
    · rw [if_pos h1, h1]
      cases kind with
      | stallSome =>
        rw [RecordKind.name, if_pos rfl, Option.bind_some]
        cases readFields lib fields with
        | none => rfl
        | some m => exact valueFor_put_self (β := fun _ => Measurements) RecordKind.stallSome m
      | stallFull =>
        rw [RecordKind.name, if_neg (by decide)]
        cases readFields lib fields <;> rfl
    · rw [if_neg h1]
      by_cases h2 : first = ascii "full"
      · rw [if_pos h2, h2]
        cases kind with
        | stallSome =>
          rw [RecordKind.name, if_neg (by decide)]
          cases readFields lib fields <;> rfl
        | stallFull =>
          rw [RecordKind.name, if_pos rfl, Option.bind_some]
          cases readFields lib fields with
          | none => rfl
          | some m => exact valueFor_put_self (β := fun _ => Measurements) RecordKind.stallFull m
      · rw [if_neg h2]
        cases kind with
        | stallSome =>
          rw [RecordKind.name, if_neg h1]
          rfl
        | stallFull =>
          rw [RecordKind.name, if_neg h2]
          rfl

theorem lineReading_ne_bad_iff (lib : Library) (line : Text) : lineReading lib line ≠ .bad ↔
    ∀ (kind : RecordKind) (fields : List Text), fieldsIn lib kind.name line = some fields →
      (readFields lib fields).isSome := by
  have hread : ∀ (kind : RecordKind) (fields : List Text), (match readFields lib fields with
      | none => .bad
      | some m => .put kind m : Reading RecordKind fun _ => Measurements) ≠ .bad ↔ (readFields lib fields).isSome := by
    intro kind fields
    cases readFields lib fields <;> simp
  unfold lineReading fieldsIn
  cases tokens isBlank (lib.trim line) with
  | nil => simp
  | cons first fields =>
    dsimp only
    by_cases h1 : first = ascii "some"
    · rw [if_pos h1, hread .stallSome]
      constructor
      · intro h kind fields' hf
        split at hf
        · cases hf
          exact h
        · cases hf
      · exact fun h => h .stallSome fields (if_pos h1)
    · rw [if_neg h1]
      by_cases h2 : first = ascii "full"
      · rw [if_pos h2, hread .stallFull]
        constructor
        · intro h kind fields' hf
          split at hf
          · cases hf
            exact h
          · cases hf
        · exact fun h => h .stallFull fields (if_pos h2)
      · rw [if_neg h2]
        refine ⟨fun _ kind fields' hf => ?_, fun _ => by simp⟩
        cases kind with
        | stallSome =>
          rw [RecordKind.name, if_neg h1] at hf
          cases hf
        | stallFull =>
          rw [RecordKind.name, if_neg h2] at hf
          cases hf

theorem valuesFor_lines (lib : Library) (kind : RecordKind) (text : Text) :
    valuesFor kind ((tokens (· == 10) text).map (lineReading lib)) =
      (recordsOf lib kind.name text).filterMap (readFields lib) := by
  rw [valuesFor, List.filterMap_map, recordsOf_eq, List.filterMap_filterMap]
  exact List.filterMap_congr fun line _ => valueFor_lineReading lib kind line

theorem lines_good_iff (lib : Library) (text : Text) :
    (∀ r ∈ (tokens (· == 10) text).map (lineReading lib), r ≠ .bad) ↔
      ∀ kind : RecordKind, ∀ fields ∈ recordsOf lib kind.name text, (readFields lib fields).isSome := by
  rw [List.forall_mem_map]
  constructor
  · intro h kind fields hfields
    rw [recordsOf_eq] at hfields
    obtain ⟨line, hline, hf⟩ := List.mem_filterMap.mp hfields
    exact (lineReading_ne_bad_iff lib line).mp (h line hline) kind fields hf
  · intro h line hline
    refine (lineReading_ne_bad_iff lib line).mpr fun kind fields hf => h kind fields ?_
    rw [recordsOf_eq]
    exact List.mem_filterMap.mpr ⟨line, hline, hf⟩

/-- A terminated text is accepted when it has the grammar, with the values of its records. -/
theorem outcome_iff (lib : Library) {text : Text} (hend : text.getLast? = some 10) (info : LsmPressureInfo) :
    outcome (fillAll (fun _ => none) ((tokens (· == 10) text).map (lineReading lib))) = (true, info) ↔
      ∃ someRecord fullRecord, Grammar lib text someRecord fullRecord ∧ info = published someRecord fullRecord := by
  constructor
  · intro h
    cases hfill : fillAll (fun _ => none) ((tokens (· == 10) text).map (lineReading lib)) with
    | none =>
      rw [hfill] at h
      cases h
    | some slots =>
      rw [hfill] at h
      obtain ⟨hgood, hvalues⟩ := fillAll_eq_some_iff.mp hfill
      rw [lines_good_iff] at hgood
      have hrecords : ∀ kind : RecordKind,
          (recordsOf lib kind.name text).filterMap (readFields lib) = (slots kind).toList := by
        intro kind
        rw [← valuesFor_lines]
        exact hvalues kind
      unfold outcome at h
      dsimp only at h
      cases hsome : slots .stallSome with
      | none =>
        rw [hsome] at h
        cases h
      | some m =>
        rw [hsome] at h
        refine ⟨m, slots .stallFull, ⟨hend, ?_, ?_⟩, (Prod.ext_iff.mp h).2.symm⟩
        · have hone := hrecords .stallSome
          rw [hsome] at hone
          obtain ⟨fields, hfields, hread⟩ := (filterMap_eq_singleton_iff (hgood .stallSome)).mp hone
          exact ⟨fields, hfields, (readFields_eq_some_iff lib fields m).mp hread⟩
        · have hone := hrecords .stallFull
          cases hfull : slots .stallFull with
          | none =>
            rw [hfull] at hone
            exact Or.inl ⟨(filterMap_eq_nil_iff (hgood .stallFull)).mp hone, rfl⟩
          | some m' =>
            rw [hfull] at hone
            obtain ⟨fields, hfields, hread⟩ := (filterMap_eq_singleton_iff (hgood .stallFull)).mp hone
            exact Or.inr ⟨fields, m', hfields, (readFields_eq_some_iff lib fields m').mp hread, rfl⟩
  · intro h
    obtain ⟨someRecord, fullRecord, hgrammar, rfl⟩ := h
    obtain ⟨fields, hfields, hrecord⟩ := hgrammar.some_once
    have hread := (readFields_eq_some_iff lib fields someRecord).mpr hrecord
    have hfull : (∀ f ∈ recordsOf lib (ascii "full") text, (readFields lib f).isSome) ∧
        (recordsOf lib (ascii "full") text).filterMap (readFields lib) = fullRecord.toList := by
      rcases hgrammar.full_once with hnone | hsome
      · obtain ⟨hnil, rfl⟩ := hnone
        rw [hnil]
        exact ⟨fun f hf => absurd hf List.not_mem_nil, rfl⟩
      · obtain ⟨fields', m, hfields', hrecord', rfl⟩ := hsome
        have hread' := (readFields_eq_some_iff lib fields' m).mpr hrecord'
        rw [hfields', List.filterMap_cons, hread']
        refine ⟨fun f hf => ?_, rfl⟩
        rw [List.mem_singleton.mp hf, hread']
        rfl
    have hfill : fillAll (fun _ => none) ((tokens (· == 10) text).map (lineReading lib)) =
        some fun | .stallSome => some someRecord | .stallFull => fullRecord := by
      refine fillAll_eq_some_iff.mpr ⟨(lines_good_iff lib text).mpr fun kind f hf => ?_, fun kind => ?_⟩
      · cases kind with
        | stallSome =>
          rw [RecordKind.name, hfields, List.mem_singleton] at hf
          rw [hf, hread]
          rfl
        | stallFull => exact hfull.1 f hf
      · rw [valuesFor_lines]
        cases kind with
        | stallSome =>
          rw [RecordKind.name, hfields, List.filterMap_cons, hread]
          rfl
        | stallFull => exact hfull.2
    rw [hfill]
    rfl

/-! ### Lines in another order -/

/-- The text of some lines, each with its newline. -/
def terminatedText (lines : List Text) : Text := lines.flatMap (· ++ [10])

theorem getLast?_terminatedText {lines : List Text} (h : lines ≠ []) : (terminatedText lines).getLast? = some 10 := by
  obtain ⟨front, last, rfl⟩ := List.eq_nil_or_concat lines |>.resolve_left h
  rw [terminatedText, List.concat_eq_append, List.flatMap_append, List.flatMap_singleton, ← List.append_assoc,
    List.getLast?_append]
  rfl

theorem fillAll_terminatedText (lib : Library) (slots : Records) {lines : List Text}
    (hlines : ∀ line ∈ lines, 10 ∉ line) :
    fillAll slots ((tokens (· == 10) (terminatedText lines)).map (lineReading lib)) =
      fillAll slots (lines.map (lineReading lib)) := by
  induction lines generalizing slots with
  | nil => rfl
  | cons line rest ih =>
    have hrest := fun l hl => hlines l (List.mem_cons_of_mem line hl)
    have htext : terminatedText (line :: rest) = line ++ 10 :: terminatedText rest := by
      rw [terminatedText, List.flatMap_cons, List.append_assoc]
      rfl
    have hcut : tokens (· == 10) (line ++ 10 :: terminatedText rest) =
        tokens (· == 10) line ++ tokens (· == 10) (terminatedText rest) := tokens_append line _ rfl
    rw [htext, hcut, List.map_append, List.map_cons]
    by_cases hnil : line = []
    · rw [hnil, tokens_nil, lineReading_nil, fillAll_skip]
      exact ih slots hrest
    · have hword : ∀ b ∈ line, (b == 10) = false := fun b hb =>
        beq_eq_false_iff_ne.mpr fun heq => hlines line (List.mem_cons_self ..) (heq ▸ hb)
      rw [tokens_word hword hnil, List.map_singleton, List.singleton_append, fillAll, fillAll]
      cases fill slots (lineReading lib line) with
      | none => rfl
      | some filled => exact ih filled hrest

theorem lsmPressureParse_lines (lib : Library) {lines : List Text} (hlines : ∀ line ∈ lines, 10 ∉ line) :
    lsmPressureParse lib true (terminatedText lines) =
      outcome (fillAll (fun _ => none) (lines.map (lineReading lib))) := by
  by_cases hne : lines = []
  · rw [hne]
    rfl
  · rw [lsmPressureParse_eq lib (getLast?_terminatedText hne), fillAll_terminatedText lib _ hlines]

/-- One line in place of another that reads the same. -/
theorem lsmPressureParse_replace (lib : Library) {before after : List Text} {line line' : Text}
    (hlines : ∀ l ∈ before ++ line :: line' :: after, 10 ∉ l) (h : lineReading lib line = lineReading lib line') :
    lsmPressureParse lib true (terminatedText (before ++ line :: after)) =
      lsmPressureParse lib true (terminatedText (before ++ line' :: after)) := by
  have hsub : ∀ l, l ∈ before ++ line :: after ∨ l ∈ before ++ line' :: after → 10 ∉ l := by
    intro l hl
    refine hlines l ?_
    simp only [List.mem_append, List.mem_cons] at hl ⊢
    tauto
  rw [lsmPressureParse_lines lib fun l hl => hsub l (Or.inl hl),
    lsmPressureParse_lines lib fun l hl => hsub l (Or.inr hl)]
  simp only [List.map_append, List.map_cons, h]

theorem lineReading_congr (lib : Library) {line line' first : Text} {fields fields' : List Text}
    (hline : tokens isBlank (lib.trim line) = first :: fields)
    (hline' : tokens isBlank (lib.trim line') = first :: fields')
    (h : readFields lib fields = readFields lib fields') : lineReading lib line = lineReading lib line' := by
  unfold lineReading
  rw [hline, hline']
  dsimp only
  rw [h]

theorem readFields_perm (lib : Library) {fields fields' : List Text} (h : fields.Perm fields') :
    readFields lib fields = readFields lib fields' := by
  rw [readFields, readFields, fillAll_perm (h.map _)]

/-- A formed token whose key is no measure. -/
theorem tokenReading_unknown (lib : Library) {token key value : Text} (hfield : Field token key value)
    (hkey : key ∉ ["avg10", "avg60", "avg300", "total"].map ascii) : tokenReading lib token = .skip := by
  have hnone : measureNamed key = none := by
    cases hm : measureNamed key with
    | none => rfl
    | some m =>
      refine absurd ?_ hkey
      rw [measureNamed_eq_some_iff.mp hm]
      cases m <;> decide
  unfold tokenReading
  rw [splitToken_eq_some_iff.mpr hfield]
  dsimp only
  rw [hnone]

theorem readFields_unknown (lib : Library) {token key value : Text} (before after : List Text)
    (hfield : Field token key value) (hkey : key ∉ ["avg10", "avg60", "avg300", "total"].map ascii) :
    readFields lib (before ++ token :: after) = readFields lib (before ++ after) := by
  rw [readFields_perm lib List.perm_middle, readFields, List.map_cons, tokenReading_unknown lib hfield hkey,
    fillAll_skip, readFields]

theorem lineReading_unknown (lib : Library) {line first : Text} {fields : List Text}
    (hline : tokens isBlank (lib.trim line) = first :: fields) (hfirst : first ∉ ["some", "full"].map ascii) :
    lineReading lib line = .skip := by
  have hnames : first ≠ ascii "some" ∧ first ≠ ascii "full" := by
    simpa only [List.map_cons, List.map_nil, List.mem_cons, List.not_mem_nil, or_false, not_or] using hfirst
  unfold lineReading
  rw [hline]
  dsimp only
  rw [if_neg hnames.1, if_neg hnames.2]

/-- **The parser accepts exactly its grammar.** The permutations are those of the lines of a
text and of the tokens that a trimmed line has behind its first word. -/
theorem lsm_pressure_parse_iff (lib : Library) :
    (∀ text, (lsmPressureParse lib true text).1 = true ↔
      ∃ someRecord fullRecord, Grammar lib text someRecord fullRecord) ∧
    (∀ text someRecord fullRecord, Grammar lib text someRecord fullRecord →
      lsmPressureParse lib true text = (true, published someRecord fullRecord)) ∧
    (∀ copied text, (lsmPressureParse lib copied text).1 = false → (lsmPressureParse lib copied text).2 = {}) ∧
    (∀ lines lines' : List Text, lines.Perm lines' → (∀ line ∈ lines, 10 ∉ line) →
      lsmPressureParse lib true (terminatedText lines) = lsmPressureParse lib true (terminatedText lines')) ∧
    (∀ (before after : List Text) (line line' first : Text) (fields fields' : List Text),
      (∀ l ∈ before ++ line :: line' :: after, 10 ∉ l) →
      tokens isBlank (lib.trim line) = first :: fields → tokens isBlank (lib.trim line') = first :: fields' →
      (fields.Perm fields' ∨
        ∃ front back token key value, Field token key value ∧
          key ∉ ["avg10", "avg60", "avg300", "total"].map ascii ∧
          fields = front ++ token :: back ∧ fields' = front ++ back) →
      lsmPressureParse lib true (terminatedText (before ++ line :: after)) =
        lsmPressureParse lib true (terminatedText (before ++ line' :: after))) ∧
    ∀ (before after : List Text) (line first : Text) (fields : List Text),
      (∀ l ∈ before ++ line :: after, 10 ∉ l) →
      tokens isBlank (lib.trim line) = first :: fields → first ∉ ["some", "full"].map ascii →
      lsmPressureParse lib true (terminatedText (before ++ line :: after)) =
        lsmPressureParse lib true (terminatedText (before ++ after)) := by
  have hparse : ∀ text info, lsmPressureParse lib true text = (true, info) ↔
      ∃ someRecord fullRecord, Grammar lib text someRecord fullRecord ∧ info = published someRecord fullRecord := by
    intro text info
    by_cases hend : text.getLast? = some 10
    · rw [lsmPressureParse_eq lib hend, outcome_iff lib hend]
    · rw [lsmPressureParse_torn lib hend]
      constructor
      · intro h
        cases h
      · intro h
        obtain ⟨_, _, hgrammar, _⟩ := h
        exact absurd hgrammar.terminated hend
  refine ⟨fun text => ⟨fun h => ?_, fun h => ?_⟩, fun text s f h => ?_, fun copied text h => ?_,
    fun lines lines' hperm hlines => ?_, fun before after line line' first fields fields' hlines hl hl' h => ?_,
    fun before after line first fields hlines hl hfirst => ?_⟩
  · obtain ⟨s, f, hgrammar, _⟩ := (hparse text _).mp (Prod.ext h rfl)
    exact ⟨s, f, hgrammar⟩
  · obtain ⟨s, f, hgrammar⟩ := h
    rw [(hparse text _).mpr ⟨s, f, hgrammar, rfl⟩]
  · exact (hparse text _).mpr ⟨s, f, h, rfl⟩
  · unfold lsmPressureParse at h ⊢
    split
    · rfl
    · split
      · rfl
      · split
        · rfl
        · split
          · rfl
          · split
            · simp_all
            · rfl
  · rw [lsmPressureParse_lines lib hlines,
      lsmPressureParse_lines lib fun line hline => hlines line (hperm.mem_iff.mpr hline), fillAll_perm (hperm.map _)]
  · refine lsmPressureParse_replace lib hlines (lineReading_congr lib hl hl' ?_)
    rcases h with hperm | hunknown
    · exact readFields_perm lib hperm
    · obtain ⟨front, back, token, key, value, hfield, hkey, rfl, rfl⟩ := hunknown
      exact readFields_unknown lib front back hfield hkey
  · rw [lsmPressureParse_lines lib hlines, lsmPressureParse_lines lib fun l hl => hlines l (by
      rcases List.mem_append.mp hl with hl | hl
      · exact List.mem_append_left _ hl
      · exact List.mem_append_right _ (List.mem_cons_of_mem line hl)),
      fillAll_perm (List.perm_middle.map _), List.map_cons, lineReading_unknown lib hl hfirst, fillAll_skip]

/-- Two records of a kernel, in either order and with their tokens in either order. -/
theorem lsm_pressure_parse_iff_sample :
    (lsmPressureParse Library.documented true
      (terminatedText [ascii "some avg10=1.00 avg60=2.00 avg300=3.00 total=4", ascii "x", []])).1 = true ∧
    lsmPressureParse Library.documented true
        (terminatedText [ascii "some avg10=1.00 avg60=2.00 avg300=3.00 total=4", ascii "x", []]) =
      lsmPressureParse Library.documented true
        (terminatedText [ascii "x", ascii "some avg10=1.00 avg60=2.00 avg300=3.00 total=4", []]) ∧
    lsmPressureParse Library.documented true
        (terminatedText [ascii "some avg10=1.00 avg60=2.00 avg300=3.00 total=4"]) =
      lsmPressureParse Library.documented true
        (terminatedText [ascii "some avg60=2.00 avg10=1.00 avg300=3.00 total=4"]) :=
  ⟨by decide +kernel,
    (lsm_pressure_parse_iff Library.documented).2.2.2.1 _ _ (List.Perm.swap _ _ _) (by decide),
    (lsm_pressure_parse_iff Library.documented).2.2.2.2.1 [] [] _ _ (ascii "some")
      (["avg10=1.00", "avg60=2.00", "avg300=3.00", "total=4"].map ascii)
      (["avg60=2.00", "avg10=1.00", "avg300=3.00", "total=4"].map ascii)
      (by decide) (by decide) (by decide) (Or.inl (List.Perm.swap _ _ _))⟩

end SystemMonitor.Procfs
