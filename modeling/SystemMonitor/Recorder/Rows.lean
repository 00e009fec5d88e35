import SystemMonitor.Recorder.Timestamps

/-! The rows that the reader accepts.

They are described field by field (`AcceptedRow`), and the reader takes exactly these
(`parse_metrics_iff`). What the writer makes of a record is such a row, unless the UTC
offset is a day or more, which the reader refuses (`recorder_rows`). -/
namespace SystemMonitor.Recorder
open Lib Lines Decimal

/-! ### Fields -/

theorem commaFields_eq_some {commas : Nat} {cursor : Text} {fields : List Text} :
    commaFields commas cursor = some fields ↔
      fields.length = commas + 1 ∧ (∀ field ∈ fields, 44 ∉ field) ∧ join 44 fields = cursor := by
  induction commas generalizing cursor fields with
  | zero =>
    rw [commaFields]
    constructor
    · intro h
      split at h
      · cases h
      · rename_i hcomma
        cases h
        exact ⟨rfl, fun field hfield => List.mem_singleton.mp hfield ▸ hcomma, rfl⟩
    · intro h
      obtain ⟨hlength, hcomma, hjoin⟩ := h
      obtain ⟨field, rfl⟩ := List.length_eq_one_iff.mp hlength
      subst hjoin
      exact if_neg (hcomma field (List.mem_singleton_self field))
  | succ commas ih =>
    rw [commaFields]
    constructor
    · intro h
      cases hdrop : cursor.dropWhile (· != 44) with
      | nil =>
        rw [hdrop] at h
        cases h
      | cons b rest =>
        rw [hdrop] at h
        obtain ⟨later, hlater, rfl⟩ := Option.map_eq_some_iff.mp h
        obtain ⟨hlength, hcomma, hjoin⟩ := ih.mp hlater
        refine ⟨congrArg (· + 1) hlength, ?_, ?_⟩
        · intro field hfield
          rcases List.mem_cons.mp hfield with rfl | hfield
          · exact fun hmem => absurd (List.mem_takeWhile_imp hmem) (by decide)
          · exact hcomma field hfield
        · cases later with
          | nil => cases hlength
          | cons next later =>
            rw [join, hjoin]
            exact (cut_first hdrop).2
    · intro h
      obtain ⟨hlength, hcomma, hjoin⟩ := h
      cases fields with
      | nil => cases hlength
      | cons field later =>
        have hlater : later.length = commas + 1 := Nat.succ.inj hlength
        have hnot : ∀ b ∈ field, (b != 44) = true := by
          intro b hb
          exact bne_iff_ne.mpr fun heq => hcomma field (List.mem_cons_self ..) (heq ▸ hb)
        cases later with
        | nil => cases hlater
        | cons next later =>
          have hrest := ih.mpr ⟨hlater, fun f hf => hcomma f (List.mem_cons_of_mem field hf), rfl⟩
          subst hjoin
          rw [join, List.dropWhile_append_of_pos hnot, List.dropWhile_cons_of_neg (by decide),
            List.takeWhile_append_of_pos hnot, List.takeWhile_cons_of_neg (by decide), List.append_nil]
          dsimp only
          rw [hrest]
          rfl

/-- A line is its body and LF or CRLF. -/
theorem lineBody_eq_some {line body : Text} : lineBody line = some body ↔
    (line = body ++ [10] ∧ body ≠ [] ∧ body.getLast? ≠ some 13) ∨ line = body ++ [13, 10] := by
  rw [lineBody]
  constructor
  · intro h
    split at h
    · cases h
    · rename_i hin
      obtain ⟨hlength, hlast⟩ := not_or.mp hin
      obtain ⟨front, rfl⟩ := List.getLast?_eq_some_iff.mp (not_not.mp hlast)
      rw [List.dropLast_concat] at h
      dsimp only at h
      split at h
      · rename_i hreturn
        obtain ⟨shorter, rfl⟩ := List.getLast?_eq_some_iff.mp hreturn
        cases h
        right
        rw [List.dropLast_concat, List.append_assoc]
        rfl
      · rename_i hreturn
        cases h
        left
        refine ⟨rfl, ?_, hreturn⟩
        intro hnil
        subst hnil
        exact hlength (by decide)
  · intro h
    rcases h with ⟨rfl, hne, hreturn⟩ | rfl
    · have hlength : ¬ (body ++ [10]).length < 2 := by
        have hpos := List.length_pos_iff.mpr hne
        rw [List.length_append, List.length_singleton]
        omega
      rw [if_neg (not_or.mpr ⟨hlength, not_not.mpr List.getLast?_concat⟩), List.dropLast_concat]
      dsimp only
      rw [if_neg hreturn]
    · have hsplit : body ++ [13, 10] = (body ++ [13]) ++ [10] := by rw [List.append_assoc]; rfl
      have hlength : ¬ ((body ++ [13]) ++ [10]).length < 2 := by
        rw [List.length_append, List.length_append]
        simp
      rw [hsplit, if_neg (not_or.mpr ⟨hlength, not_not.mpr List.getLast?_concat⟩), List.dropLast_concat]
      dsimp only
      rw [if_pos List.getLast?_concat, List.dropLast_concat]

/-! ### Rows -/

variable (numerals : Numerals)

/-- A number that a column takes. -/
def ColumnValue (column n : Nat) : Prop := n ≤ uint64Max ∧ (column = 1 → 1 ≤ n) ∧ (column = 7 → n ≤ uintMax)

/-- Eight fields that are a row, and its metrics. -/
structure AcceptedFields (fields : List Text) (cpu memory : ℚ) : Prop where
  eight : fields.length = 8
  commaFree : ∀ field ∈ fields, 44 ∉ field
  timestamp : ∃ (t : CivilTime) (z : Zone), fields.getD 0 [] = t.text ++ z.text
  integral : ∀ column ∈ integralFields, (fields.getD column []).length < 64 ∧
    ∃ n, Decimal.parse (fields.getD column []) = some n ∧ ColumnValue column n
  cpu : metricValue numerals 0 dblMax (fields.getD 2 []) = some cpu
  memory : metricValue numerals 0 100 (fields.getD 3 []) = some memory

/-- The fields with commas, and LF or CRLF. -/
def AcceptedRow (line : Text) (cpu memory : ℚ) : Prop :=
  ∃ fields, AcceptedFields numerals fields cpu memory ∧
    (line = join 44 fields ++ [10] ∨ line = join 44 fields ++ [13, 10])

theorem recorderField_eq_some {field text : Text} :
    recorderField field = some text ↔ (field ≠ [] ∧ field.length < 64) ∧ field = text := by
  rw [recorderField]
  split
  · rename_i hout
    exact iff_of_false nofun fun h => hout.elim h.1.1 (Nat.not_le_of_lt h.1.2)
  · rename_i hin
    obtain ⟨hne, hlength⟩ := not_or.mp hin
    rw [Option.some_inj, and_iff_right ⟨hne, Nat.lt_of_not_le hlength⟩]

theorem parse_ne_nil {text : Text} {n : Nat} (h : Decimal.parse text = some n) :
    text ≠ [] ∧ ∀ b ∈ text, isDigit b = true := by
  rw [Decimal.parse] at h
  split at h
  · rename_i hdigits
    exact ⟨hdigits.1, List.all_eq_true.mp hdigits.2⟩
  · cases h

theorem integralValid_iff {column : Nat} {field : Text} : integralValid numerals column field = true ↔
    field.length < 64 ∧ ∃ n, Decimal.parse field = some n ∧ ColumnValue column n := by
  rw [integralValid]
  constructor
  · intro h
    split at h
    · cases h
    · rename_i value hvalue
      obtain ⟨text, htext, hparse⟩ := Option.bind_eq_some_iff.mp hvalue
      obtain ⟨⟨-, hlength⟩, rfl⟩ := recorderField_eq_some.mp htext
      rw [numerals.parseU64_eq] at hparse
      obtain ⟨hparse, hmax⟩ := Option.filter_eq_some_iff.mp hparse
      simp only [Bool.and_eq_true, Bool.not_eq_true', Bool.and_eq_false_iff, beq_eq_false_iff_ne,
        decide_eq_false_iff_not] at h
      refine ⟨hlength, value, hparse, of_decide_eq_true hmax, ?_, ?_⟩
      · intro hcolumn
        exact Nat.pos_of_ne_zero (h.1.resolve_left (not_not.mpr hcolumn))
      · intro hcolumn
        exact Nat.le_of_not_lt (h.2.resolve_left (not_not.mpr hcolumn))
  · intro ⟨hlength, n, hparse, hmax, hpid, hthreads⟩
    have hfield : recorderField field = some field :=
      recorderField_eq_some.mpr ⟨⟨(parse_ne_nil hparse).1, hlength⟩, rfl⟩
    have hvalue : (recorderField field).bind numerals.parseU64 = some n := by
      rw [hfield, Option.bind_some, numerals.parseU64_eq, hparse]
      exact Option.filter_some_pos (decide_eq_true hmax)
    rw [hvalue]
    simp only [Bool.and_eq_true, Bool.not_eq_true', Bool.and_eq_false_iff, beq_eq_false_iff_ne,
      decide_eq_false_iff_not]
    constructor
    · by_cases hcolumn : column = 1
      · exact Or.inr (Nat.ne_of_gt (hpid hcolumn))
      · exact Or.inl hcolumn
    · by_cases hcolumn : column = 7
      · exact Or.inr (Nat.not_lt_of_le (hthreads hcolumn))
      · exact Or.inl hcolumn

/-- The last field is a number, so the row does not end in a carriage return. -/
theorem AcceptedFields.lineBody {fields : List Text} {cpu memory : ℚ} (h : AcceptedFields numerals fields cpu memory)
    {line : Text} (hline : line = join 44 fields ++ [10] ∨ line = join 44 fields ++ [13, 10]) :
    lineBody line = some (join 44 fields) := by
  rw [lineBody_eq_some]
  refine hline.imp_left fun hline => ⟨hline, ?_⟩
  obtain ⟨-, n, hparse, -⟩ := h.integral 7 (by decide)
  obtain ⟨hne, hdigits⟩ := parse_ne_nil hparse
  have hlast : fields.getLast? = some (fields.getD 7 []) := by
    rw [List.getLast?_eq_getElem?, h.eight, List.getD_eq_getElem?_getD]
    have hlt : 7 < fields.length := by
      rw [h.eight]
      decide
    rw [List.getElem?_eq_getElem hlt]
    rfl
  obtain ⟨front, hfront⟩ := List.getLast?_eq_some_iff.mp hlast
  have hfrontNe : front ≠ [] := by
    intro hnil
    have hlength := h.eight
    rw [hfront, hnil] at hlength
    cases hlength
  generalize fields.getD 7 [] = field at hne hdigits hfront
  rw [hfront, join_concat 44 hfrontNe, List.append_cons]
  refine ⟨List.append_ne_nil_of_right_ne_nil _ hne, ?_⟩
  rw [List.getLast?_append_of_ne_nil _ hne]
  intro hreturn
  exact absurd (hdigits 13 (List.mem_of_getLast? hreturn)) (by decide)

theorem parse_metrics_iff {line : Text} {outputs : ℚ × ℚ} {cpu memory : ℚ} :
    lsmProcessRecorderParseMetrics numerals line outputs = (true, cpu, memory) ↔ AcceptedRow numerals line cpu memory := by
  rw [lsmProcessRecorderParseMetrics]
  constructor
  · intro h
    cases hfields : (lineBody line).bind (commaFields 7) with
    | none =>
      rw [hfields] at h
      cases h
    | some fields =>
      rw [hfields] at h
      dsimp only at h
      split at h
      · cases h
      split at h
      · cases h
      rename_i htimestamp hintegral
      rw [Bool.not_eq_true, Bool.not_eq_false'] at htimestamp hintegral
      split at h
      · cases h
      split at h
      · cases h
      rename_i hcpu _ _ hmemory
      cases h
      obtain ⟨body, hbody, hcommas⟩ := Option.bind_eq_some_iff.mp hfields
      obtain ⟨hlength, hcomma, rfl⟩ := commaFields_eq_some.mp hcommas
      refine ⟨fields, ⟨hlength, hcomma, recorderTimestampValid_iff.mp htimestamp, ?_, hcpu, hmemory⟩, ?_⟩
      · intro column hcolumn
        exact (integralValid_iff numerals).mp (List.all_eq_true.mp hintegral column hcolumn)
      · exact (lineBody_eq_some.mp hbody).imp_left And.left
  · intro ⟨fields, haccepted, hline⟩
    have hfields : (lineBody line).bind (commaFields 7) = some fields := by
      rw [haccepted.lineBody numerals hline]
      exact commaFields_eq_some.mpr ⟨haccepted.eight, haccepted.commaFree, rfl⟩
    have hintegral : (integralFields.all fun column => integralValid numerals column (fields.getD column [])) = true :=
      List.all_eq_true.mpr fun column hcolumn => (integralValid_iff numerals).mpr (haccepted.integral column hcolumn)
    rw [hfields]
    dsimp only
    rw [recorderTimestampValid_iff.mpr haccepted.timestamp, hintegral, haccepted.cpu, haccepted.memory]
    rfl

/-- A row that is refused leaves the caller's variables alone. -/
theorem parse_metrics_refused {line : Text} {outputs result : ℚ × ℚ}
    (h : lsmProcessRecorderParseMetrics numerals line outputs = (false, result)) : result = outputs := by
  rw [lsmProcessRecorderParseMetrics] at h
  split at h
  · cases h
    rfl
  · split at h
    · cases h
      rfl
    · split at h
      · cases h
        rfl
      · split at h
        · cases h
          rfl
        · split at h
          · cases h
            rfl
          · cases h

/-! ### What is written -/

/-- A record within its types and the ranges of its metrics. -/
structure Recordable (node : RecordNode) : Prop where
  pid : 1 ≤ node.pid ∧ node.pid ≤ uint64Max
  cpuPercent : 0 ≤ node.cpuPercent ∧ node.cpuPercent ≤ dblMax
  memoryPercent : 0 ≤ node.memoryPercent ∧ node.memoryPercent ≤ 100
  rssBytes : node.rssBytes ≤ uint64Max
  readBytes : node.readBytes ≤ uint64Max
  writeBytes : node.writeBytes ≤ uint64Max
  threads : node.threads ≤ uintMax

theorem comma_not_mem {text : Text} (h : ∀ b ∈ text, isDigit b = true) : 44 ∉ text :=
  fun hmem => absurd (h 44 hmem) (by decide)

theorem comma_not_mem_timestamp (t : CivilTime) (z : Zone) : 44 ∉ t.text ++ z.text := by
  have hfixed : ∀ width n, 44 ∉ printFixed width n := fun width n => comma_not_mem fun _ => mem_printFixed
  have hsecond : 44 ∉ (z.second.map (printFixed 2)).getD [] := by
    cases z.second with
    | none => exact List.not_mem_nil
    | some s => exact hfixed 2 s
  have hsign : (44 : UInt8) ≠ if z.negative then 45 else 43 := by
    cases z.negative <;> decide
  simp [CivilTime.text, Zone.text, hfixed, hsecond, hsign]

/-- A number that a column takes is read back. -/
theorem print_column {column n : Nat} (h : ColumnValue column n) :
    (print n).length < 64 ∧ ∃ m, Decimal.parse (print n) = some m ∧ ColumnValue column m := by
  have hlt : n < 10 ^ 20 := Nat.lt_of_le_of_lt h.1 (by decide)
  have hlength := length_print (by decide) hlt
  exact ⟨by omega, n, parse_print n, h⟩

variable {numerals}

/-- A metric in its range is read back in three decimals. -/
theorem metricValue_format {x low high : ℚ} {text : Text} (hformat : numerals.formatFixed x = some text)
    (hlow : numerals.threeDecimals low = low) (hhigh : numerals.threeDecimals high = high) (hx : low ≤ x ∧ x ≤ high) :
    metricValue numerals low high text = some (numerals.threeDecimals x) := by
  obtain ⟨hne, hlength, -⟩ := numerals.formatFixed_text x text hformat
  have hfield : recorderField text = some text := recorderField_eq_some.mpr ⟨⟨hne, hlength⟩, rfl⟩
  have hlowLe := numerals.threeDecimals_mono low x hx.1
  have hleHigh := numerals.threeDecimals_mono x high hx.2
  rw [hlow] at hlowLe
  rw [hhigh] at hleHigh
  rw [metricValue, hfield, Option.bind_some, numerals.format_parse x text low high hformat hlowLe hleHigh]

theorem writeRecord_eq_some {localtime : Int → Option Tm} {node : RecordNode} {tm : Tm} {timestamp : Text}
    (htm : localtime node.timestamp = some tm) (htime : strftime tm = some timestamp) {line : Text} :
    writeRecord numerals localtime node = some line ↔ ∃ cpuPercent memoryPercent,
      numerals.formatFixed node.cpuPercent = some cpuPercent ∧
      numerals.formatFixed node.memoryPercent = some memoryPercent ∧
      line = join 44 [timestamp, print node.pid, cpuPercent, memoryPercent, print node.rssBytes, print node.readBytes,
        print node.writeBytes, print node.threads] ++ [10] := by
  rw [writeRecord, htm]
  dsimp only
  rw [htime]
  dsimp only
  constructor
  · intro h
    split at h
    · rename_i cpuPercent memoryPercent hcpu hmemory
      cases h
      exact ⟨cpuPercent, memoryPercent, hcpu, hmemory, rfl⟩
    · cases h
  · intro ⟨cpuPercent, memoryPercent, hcpu, hmemory, hline⟩
    rw [hcpu, hmemory, hline]

/-- **A row that is written is accepted.** -/
theorem written_accepted {localtime : Int → Option Tm} {node : RecordNode} {tm : Tm} (hnode : Recordable node)
    (htm : localtime node.timestamp = some tm) (hpresentable : Presentable tm) {line : Text}
    (hline : writeRecord numerals localtime node = some line) : AcceptedRow numerals line
      (numerals.threeDecimals node.cpuPercent) (numerals.threeDecimals node.memoryPercent) := by
  obtain ⟨t, z, htime⟩ := strftime_text hpresentable
  obtain ⟨cpuPercent, memoryPercent, hcpu, hmemory, rfl⟩ := (writeRecord_eq_some htm htime).mp hline
  have hzero : numerals.threeDecimals 0 = 0 := numerals.threeDecimals_int 0
  have hhundred : numerals.threeDecimals 100 = 100 := numerals.threeDecimals_int 100
  have hmax : numerals.threeDecimals dblMax = dblMax := by
    have hint := numerals.threeDecimals_int ((2 ^ 53 - 1) * 2 ^ 971 : Nat)
    rwa [Int.cast_natCast] at hint
  have hprint : ∀ n, 44 ∉ print n := fun n => comma_not_mem fun _ => mem_print
  have hformat : ∀ {x text}, numerals.formatFixed x = some text → 44 ∉ text := by
    intro x text htext hmem
    rcases (numerals.formatFixed_text x text htext).2.2 44 hmem with hbyte | hbyte | hbyte
    all_goals exact absurd hbyte (by decide)
  have hwide : ∀ {column n}, column ≠ 1 → column ≠ 7 → n ≤ uint64Max → ColumnValue column n :=
    fun hpid hthreads hn => ⟨hn, fun h => absurd h hpid, fun h => absurd h hthreads⟩
  refine ⟨_, ⟨rfl, ?_, ⟨t, z, rfl⟩, ?_, ?_, ?_⟩, Or.inl rfl⟩
  · simp only [List.forall_mem_cons]
    exact ⟨comma_not_mem_timestamp t z, hprint _, hformat hcpu, hformat hmemory, hprint _, hprint _, hprint _, hprint _,
      nofun⟩
  · simp only [integralFields, List.forall_mem_cons]
    refine ⟨print_column ⟨hnode.pid.2, fun _ => hnode.pid.1, nofun⟩, print_column (hwide nofun nofun hnode.rssBytes),
      print_column (hwide nofun nofun hnode.readBytes), print_column (hwide nofun nofun hnode.writeBytes),
      print_column ⟨hnode.threads.trans (by decide), nofun, fun _ => hnode.threads⟩, nofun⟩
  · exact metricValue_format hcpu hzero hmax hnode.cpuPercent
  · exact metricValue_format hmemory hzero hhundred hnode.memoryPercent

/-! ### Both ways -/

/-- 29 February 2024, an hour ahead of UTC. -/
def leapDay : Tm where
  year := 2024
  month := 2
  day := 29
  hour := 23
  minute := 59
  second := 59
  gmtoff := 3600
  month_range := by decide
  day_range := by decide
  hour_lt := by decide
  minute_lt := by decide
  second_le := by decide

def sampleNode : RecordNode where
  timestamp := 1709247599
  pid := 42
  cpuPercent := 25 / 2
  memoryPercent := 13 / 4
  rssBytes := 1000
  readBytes := 0
  writeBytes := 7
  threads := 3

theorem sampleNode_recordable : Recordable sampleNode :=
  ⟨by decide, by decide +kernel, by decide +kernel, by decide, by decide, by decide, by decide⟩

/-- **The written row of a day-long UTC offset is refused.** -/
theorem day_offset_refused : Recordable sampleNode ∧ ∃ line,
    writeRecord .documented (fun _ => some {leapDay with gmtoff := 86400}) sampleNode = some line ∧
      lsmProcessRecorderParseMetrics .documented line (0, 0) = (false, 0, 0) :=
  ⟨sampleNode_recordable, ascii "2024-02-29T23:59:59+2400,42,12.500,3.250,1000,0,7,3\n", by decide +kernel,
    by decide⟩

variable (numerals) in
/-- **What is written of a record is read back, in three decimals; what is accepted is a row; and a
line that is refused leaves the caller's variables alone.** -/
theorem recorder_rows (localtime : Int → Option Tm) :
    (∀ node tm, Recordable node → localtime node.timestamp = some tm → Presentable tm →
      (writeRecord numerals localtime node = none ↔
        numerals.formatFixed node.cpuPercent = none ∨ numerals.formatFixed node.memoryPercent = none) ∧
      ∀ line, writeRecord numerals localtime node = some line → ∀ outputs,
        lsmProcessRecorderParseMetrics numerals line outputs =
          (true, numerals.threeDecimals node.cpuPercent, numerals.threeDecimals node.memoryPercent)) ∧
    (∀ line outputs cpu memory, lsmProcessRecorderParseMetrics numerals line outputs = (true, cpu, memory) ↔
      AcceptedRow numerals line cpu memory) ∧
    ∀ line outputs result, lsmProcessRecorderParseMetrics numerals line outputs = (false, result) →
      result = outputs := by
  refine ⟨?_, fun line outputs cpu memory => parse_metrics_iff numerals, fun line outputs result h =>
    parse_metrics_refused numerals h⟩
  intro node tm hnode htm hpresentable
  refine ⟨?_, fun line hline outputs =>
    (parse_metrics_iff numerals).mpr (written_accepted hnode htm hpresentable hline)⟩
  obtain ⟨t, z, htime⟩ := strftime_text hpresentable
  rw [Option.eq_none_iff_forall_ne_some]
  simp only [ne_eq, writeRecord_eq_some htm htime]
  constructor
  · intro h
    cases hcpu : numerals.formatFixed node.cpuPercent with
    | none => exact Or.inl rfl
    | some cpuPercent =>
      cases hmemory : numerals.formatFixed node.memoryPercent with
      | none => exact Or.inr rfl
      | some memoryPercent => exact absurd ⟨cpuPercent, memoryPercent, hcpu, hmemory, rfl⟩ (h _)
  · intro hnone line ⟨cpuPercent, memoryPercent, hcpu, hmemory, _⟩
    rcases hnone with hnone | hnone
    · exact Option.some_ne_none cpuPercent (hcpu.symm.trans hnone)
    · exact Option.some_ne_none memoryPercent (hmemory.symm.trans hnone)

theorem recorder_rows_leap_day : ∃ line, writeRecord .documented (fun _ => some leapDay) sampleNode = some line ∧
    lsmProcessRecorderParseMetrics .documented line (0, 0) = (true, 25 / 2, 13 / 4) := by
  have hwritten : writeRecord .documented (fun _ => some leapDay) sampleNode =
      some (ascii "2024-02-29T23:59:59+0100,42,12.500,3.250,1000,0,7,3\n") := by decide +kernel
  have hrounded : Numerals.documented.threeDecimals sampleNode.cpuPercent = 25 / 2 ∧
      Numerals.documented.threeDecimals sampleNode.memoryPercent = 13 / 4 := by decide +kernel
  have hread := ((recorder_rows .documented fun _ => some leapDay).1 sampleNode leapDay sampleNode_recordable rfl
    ⟨by decide, by decide, by decide⟩).2 _ hwritten (0, 0)
  rw [hrounded.1, hrounded.2] at hread
  exact ⟨_, hwritten, hread⟩

end SystemMonitor.Recorder
