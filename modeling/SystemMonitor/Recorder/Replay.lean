import Mathlib.Algebra.Group.Action.Defs
import SystemMonitor.Recorder.Import
import SystemMonitor.Recorder.Rows

/-! A recording from its samples to the graph.

The recorder's machine with the bytes of its file: a row that is written whole is a line,
and a write that fails leaves a first part of one. What is read back, at any moment and
however the recording ended, are the last samples of the rows that are whole
(`recording_replayed`), so a torn row costs nothing but itself. -/
namespace SystemMonitor.Recorder
open Lib Lines

/-- What becomes of a row: it is written, or the write fails and so many of its bytes are in
the file, now or when it is closed. -/
inductive RowWrite where
  | whole
  | torn (errno : Nat) (bytes : Nat)

structure RecordingFile where
  state : State := {}
  /-- Behind the header. -/
  bytes : Bytes := []

inductive FileAction where
  | recorder (a : Action)
  | row (write : RowWrite)

section
variable (numerals : Numerals) (localtime : Int → Option Tm)

/-- `write_record` and what the worker does after it. -/
def rowWritten (s : RecordingFile) (i : Nat) (node : RecordNode) : RowWrite → Option RecordingFile
  | .whole => (writeRecord numerals localtime node).map fun line =>
      {state := recorderThreadWrote s.state i node none true, bytes := s.bytes ++ line}
  | .torn errno bytes =>
    match writeRecord numerals localtime node with
    | none => some {s with state := recorderThreadWrote s.state i node (some errno) false}
    | some line => some {
        state := recorderThreadWrote s.state i node (some errno) (decide (line.length ≤ bytes))
        bytes := s.bytes ++ line.take bytes}

def fileStep (s : RecordingFile) : FileAction → Option RecordingFile
  | .recorder (.wrote _ _) => none
  | .recorder a => (machine.step s.state a).map fun state => {s with state}
  | .row write =>
    match s.state.worker with
    | .writing i node => rowWritten numerals localtime s i node write
    | _ => none

def fileMachine : Machine RecordingFile FileAction := ⟨fileStep numerals localtime⟩

end

/-- The events of the recorder. -/
def fileEvents (s : RecordingFile) : FileAction → List Event
  | .recorder a => events s.state a
  | .row .whole => []
  | .row (.torn _ _) => [.failed]

/-- A record that is within its types, at a time that is written as the reader expects it. -/
def Replayable (localtime : Int → Option Tm) (node : RecordNode) : Prop :=
  Recordable node ∧ ∃ tm, localtime node.timestamp = some tm ∧ Presentable tm

/-- The two columns of the graph. -/
def metrics (numerals : Numerals) (node : RecordNode) : ℚ × ℚ :=
  (numerals.threeDecimals node.cpuPercent, numerals.threeDecimals node.memoryPercent)

/-- What the graph shows of these samples. -/
def shown (samples : List (ℚ × ℚ)) : Option Text × List (ℚ × ℚ) :=
  (if samples = [] then some (ascii "The process recording contains no valid samples.") else none,
    samples.rtake lsmHistoryLength)

variable {numerals : Numerals} {localtime : Int → Option Tm}

/-! ### Rows -/

theorem not_mem_timestamp (t : CivilTime) (z : Zone) {b : UInt8} (hdigit : Decimal.isDigit b = false)
    (hmarks : b ≠ 43 ∧ b ≠ 45 ∧ b ≠ 58 ∧ b ≠ 84) : b ∉ t.text ++ z.text := by
  have hfixed : ∀ width n, b ∉ Decimal.printFixed width n := by
    intro width n hmem
    rw [Decimal.mem_printFixed hmem] at hdigit
    cases hdigit
  have hsecond : b ∉ (z.second.map (Decimal.printFixed 2)).getD [] := by
    cases z.second with
    | none => exact List.not_mem_nil
    | some s => exact hfixed 2 s
  have hsign : b ≠ if z.negative then 45 else 43 := by
    cases z.negative with
    | false => exact hmarks.1
    | true => exact hmarks.2.1
  simp [CivilTime.text, Zone.text, hfixed, hsecond, hsign, hmarks]

/-- A row without its newline, as the reader finds it in its buffer. -/
structure PlainRow (row : Bytes) : Prop where
  noNewline : 10 ∉ row
  noNul : 0 ∉ row
  fits : row.length < lineRoom

/-- A field of a row. -/
structure PlainField (field : Text) : Prop where
  noNewline : 10 ∉ field
  noNul : 0 ∉ field
  fits : field.length < 64

theorem PlainField.print {n : Nat} (h : n ≤ uint64Max) : PlainField (Decimal.print n) := by
  have hdigits : ∀ b ∈ Decimal.print n, Decimal.isDigit b = true := fun b hb => Decimal.mem_print hb
  have hlength := Decimal.length_print (n := n) (k := 20) (by decide) (Nat.lt_of_le_of_lt h (by decide))
  exact ⟨fun hmem => absurd (hdigits 10 hmem) (by decide), fun hmem => absurd (hdigits 0 hmem) (by decide), by omega⟩

theorem PlainField.metric {x : ℚ} {text : Text} (h : numerals.formatFixed x = some text) : PlainField text := by
  obtain ⟨-, hlength, hbytes⟩ := numerals.formatFixed_text x text h
  refine ⟨fun hmem => ?_, fun hmem => ?_, hlength⟩
  · rcases hbytes 10 hmem with hbyte | hbyte | hbyte
    all_goals exact absurd hbyte (by decide)
  · rcases hbytes 0 hmem with hbyte | hbyte | hbyte
    all_goals exact absurd hbyte (by decide)

theorem PlainField.timestamp (t : CivilTime) (z : Zone) : PlainField (t.text ++ z.text) := by
  refine ⟨not_mem_timestamp t z (by decide) (by decide), not_mem_timestamp t z (by decide) (by decide), ?_⟩
  rcases (layout_text t z).length with hlength | hlength
  all_goals
    rw [hlength]
    decide

theorem PlainRow.join {fields : List Text} (hcount : fields.length ≤ 8) (h : ∀ field ∈ fields, PlainField field) :
    PlainRow (join 44 fields) := by
  have hsum : (fields.map List.length).sum ≤ fields.length * 64 := by
    have hbound := List.sum_le_card_nsmul (fields.map List.length) 64 fun n hn => by
      obtain ⟨field, hfield, rfl⟩ := List.mem_map.mp hn
      exact Nat.le_of_lt (h field hfield).fits
    rwa [List.length_map, smul_eq_mul] at hbound
  have hlength := length_join 44 fields
  refine ⟨fun hmem => ?_, fun hmem => ?_, ?_⟩
  · rcases mem_join hmem with hcomma | ⟨field, hfield, hbyte⟩
    · exact absurd hcomma (by decide)
    · exact (h field hfield).noNewline hbyte
  · rcases mem_join hmem with hcomma | ⟨field, hfield, hbyte⟩
    · exact absurd hcomma (by decide)
    · exact (h field hfield).noNul hbyte
  · rw [lineRoom]
    omega

/-- What is written of a record is a line, and the reader finds its metrics in it. -/
theorem written_line {node : RecordNode} (hnode : Replayable localtime node) {line : Text}
    (hline : writeRecord numerals localtime node = some line) :
    ∃ row, line = row ++ [10] ∧ PlainRow row ∧ lineSample numerals row = some (metrics numerals node) := by
  obtain ⟨hrecordable, tm, htm, hpresentable⟩ := hnode
  have haccepted := written_accepted hrecordable htm hpresentable hline
  obtain ⟨t, z, htime⟩ := strftime_text hpresentable
  obtain ⟨cpuPercent, memoryPercent, hcpu, hmemory, rfl⟩ := (writeRecord_eq_some htm htime).mp hline
  have hplain : PlainRow (join 44 [t.text ++ z.text, Decimal.print node.pid, cpuPercent, memoryPercent,
      Decimal.print node.rssBytes, Decimal.print node.readBytes, Decimal.print node.writeBytes,
      Decimal.print node.threads]) := by
    refine .join (Nat.le_refl 8) ?_
    simp only [List.forall_mem_cons]
    exact ⟨.timestamp t z, .print hrecordable.pid.2, .metric hcpu, .metric hmemory, .print hrecordable.rssBytes,
      .print hrecordable.readBytes, .print hrecordable.writeBytes,
      .print (hrecordable.threads.trans (by decide)), nofun⟩
  refine ⟨_, rfl, hplain, ?_⟩
  have hnul : 0 ∉ join 44 [t.text ++ z.text, Decimal.print node.pid, cpuPercent, memoryPercent,
      Decimal.print node.rssBytes, Decimal.print node.readBytes, Decimal.print node.writeBytes,
      Decimal.print node.threads] ++ [10] :=
    List.not_mem_append hplain.noNul (by decide)
  rw [lineSample, if_pos hplain.fits, cString_of_noNul hnul, (parse_metrics_iff numerals).mpr haccepted]
  rfl

/-! ### The file -/

variable (numerals localtime) in
/-- The rows of these records. -/
def rowBytes (nodes : List RecordNode) : Bytes :=
  nodes.flatMap fun node => (writeRecord numerals localtime node).getD []

/-- The rows that have been written whole, and what is behind them. -/
structure Written (numerals : Numerals) (localtime : Int → Option Tm) (log : List Event) (s : RecordingFile)
    (torn : Bytes) : Prop where
  rows : ∀ node ∈ s.state.file, (writeRecord numerals localtime node).isSome = true
  bytes : s.bytes = rowBytes numerals localtime s.state.file ++ torn
  torn : torn = [] ∨ .failed ∈ log ∧ ∃ node ∈ acceptedNodes log, ∃ line, writeRecord numerals localtime node = some line ∧
    ∃ count < line.length, torn = line.take count

/-- The recorder between its steps, with its file. -/
structure OnFile (numerals : Numerals) (localtime : Int → Option Tm) (log : List Event) (s : RecordingFile) : Prop where
  recording : ∃ cells, Recording log s.state cells
  written : ∃ torn, Written numerals localtime log s torn

theorem OnFile.create : OnFile numerals localtime [] {} :=
  ⟨⟨[], .create⟩, [], nofun, rfl, .inl rfl⟩

/-- The file is left alone, and the log only grows. -/
theorem Written.keep {log : List Event} {s : RecordingFile} {torn : Bytes} (h : Written numerals localtime log s torn)
    {state : State} (hfile : state.file = s.state.file) (more : List Event) :
    Written numerals localtime (log ++ more) {s with state} torn := by
  refine ⟨hfile.symm ▸ h.rows, hfile.symm ▸ h.bytes, h.torn.imp_right ?_⟩
  rintro ⟨hfailed, node, hnode, hline⟩
  rw [acceptedNodes_append]
  exact ⟨List.mem_append_left _ hfailed, node, List.mem_append_left _ hnode, hline⟩

/-- Only a write changes the rows. -/
theorem step_file {s t : State} {a : Action} (ha : ∀ outcome reached, a ≠ .wrote outcome reached)
    (h : machine.step s a = some t) : t.file = s.file := by
  simp only [machine, Recorder.step] at h
  cases a with
  | append i timestamp process =>
    simp only at h
    split at h
    · cases h
      rfl
    · cases h
  | stop =>
    cases h
    rfl
  | next =>
    simp only at h
    split at h
    · unfold recorderThreadNext at h
      split at h
      · split at h
        · cases h
          rfl
        · cases h
      · split at h
        · cases h
        · cases h
          rfl
    · cases h
  | wrote outcome reached => exact absurd rfl (ha outcome reached)
  | discard =>
    simp only at h
    split at h
    · cases h
      rfl
    · cases h
  | closed outcome =>
    simp only at h
    split at h
    · cases h
      cases outcome <;> rfl
    · cases h

theorem rowBytes_concat (nodes : List RecordNode) {node : RecordNode} {line : Text}
    (h : writeRecord numerals localtime node = some line) :
    rowBytes numerals localtime (nodes ++ [node]) = rowBytes numerals localtime nodes ++ line := by
  simp [rowBytes, h]

/-- A row that is on its way. -/
theorem Written.pending {log : List Event} {s : RecordingFile} {torn : Bytes} (h : Written numerals localtime log s torn)
    {cells : List (Nat × RecordNode)} (hrecording : Recording log s.state cells) {i : Nat} {node : RecordNode}
    (hworker : s.state.worker = .writing i node) : torn = [] ∧ node ∈ acceptedNodes log := by
  have hprogress := hrecording.progress
  rw [hworker] at hprogress
  obtain ⟨hrows, hnone, -⟩ := hprogress
  refine ⟨h.torn.resolve_right fun hfailed => hnone hfailed.1, ?_⟩
  rw [hrows]
  simp

/-- The row is whole. -/
theorem Written.whole {log : List Event} {s : RecordingFile} (h : Written numerals localtime log s []) {node : RecordNode}
    {line : Text} (hline : writeRecord numerals localtime node = some line) {state : State}
    (hfile : state.file = s.state.file ++ [node]) (more : List Event) :
    Written numerals localtime (log ++ more) {state, bytes := s.bytes ++ line} [] := by
  refine ⟨?_, ?_, .inl rfl⟩
  · intro other hother
    rw [hfile, List.mem_append, List.mem_singleton] at hother
    rcases hother with hother | rfl
    · exact h.rows other hother
    · rw [hline]
      rfl
  · show s.bytes ++ line = _
    rw [hfile, rowBytes_concat _ hline, h.bytes, List.append_nil, List.append_nil]

theorem OnFile.row {log : List Event} {s t : RecordingFile} (h : OnFile numerals localtime log s) {i : Nat}
    {node : RecordNode} (hworker : s.state.worker = .writing i node) {write : RowWrite}
    (hstep : rowWritten numerals localtime s i node write = some t) :
    OnFile numerals localtime (log ++ fileEvents s (.row write)) t := by
  obtain ⟨⟨cells, hrecording⟩, torn, hwritten⟩ := h
  obtain ⟨rfl, hnode⟩ := hwritten.pending hrecording hworker
  cases write with
  | whole =>
    obtain ⟨line, hline, rfl⟩ := Option.map_eq_some_iff.mp hstep
    exact ⟨⟨cells, hrecording.wrote hworker none true⟩, [], hwritten.whole hline rfl _⟩
  | torn errno bytes =>
    rw [rowWritten] at hstep
    cases hline : writeRecord numerals localtime node with
    | none =>
      rw [hline] at hstep
      cases hstep
      have hfile : (recorderThreadWrote s.state i node (some errno) false).file = s.state.file := rfl
      exact ⟨⟨cells, hrecording.wrote hworker (some errno) false⟩, [], hwritten.keep hfile _⟩
    | some line =>
      rw [hline] at hstep
      cases hstep
      refine ⟨⟨cells, hrecording.wrote hworker (some errno) _⟩, ?_⟩
      by_cases hreached : line.length ≤ bytes
      · -- The failure came after the row.
        rw [List.take_of_length_le hreached]
        refine ⟨[], hwritten.whole hline ?_ _⟩
        simp [recorderThreadWrote, hreached]
      · refine ⟨line.take bytes, ?_⟩
        have hfile : (recorderThreadWrote s.state i node (some errno) (decide (line.length ≤ bytes))).file =
            s.state.file := by
          simp [recorderThreadWrote, hreached]
        refine ⟨hfile.symm ▸ hwritten.rows, ?_, .inr ⟨by simp [fileEvents], node, ?_, line, hline, bytes,
          Nat.lt_of_not_le hreached, rfl⟩⟩
        · show s.bytes ++ line.take bytes = _
          rw [hfile, hwritten.bytes, List.append_nil]
        · rw [acceptedNodes_append]
          exact List.mem_append_left _ hnode

theorem OnFile.step {log : List Event} {s t : RecordingFile} {a : FileAction} (h : OnFile numerals localtime log s)
    (hstep : (fileMachine numerals localtime).step s a = some t) :
    OnFile numerals localtime (log ++ fileEvents s a) t := by
  have hrecorder : ∀ a : Action, (∀ outcome reached, a ≠ .wrote outcome reached) →
      (machine.step s.state a).map (fun state => {s with state}) = some t →
      OnFile numerals localtime (log ++ events s.state a) t := by
    intro a ha hstep
    obtain ⟨state, hstate, rfl⟩ := Option.map_eq_some_iff.mp hstep
    obtain ⟨⟨cells, hrecording⟩, torn, hwritten⟩ := h
    exact ⟨hrecording.step hstate, torn, hwritten.keep (step_file ha hstate) _⟩
  cases a with
  | recorder a =>
    cases a with
    | wrote outcome reached => cases hstep
    | append i timestamp process => exact hrecorder (.append i timestamp process) nofun hstep
    | stop => exact hrecorder .stop nofun hstep
    | next => exact hrecorder .next nofun hstep
    | discard => exact hrecorder .discard nofun hstep
    | closed outcome => exact hrecorder (.closed outcome) nofun hstep
  | row write =>
    simp only [fileMachine, fileStep] at hstep
    split at hstep
    · rename_i i node hworker
      exact h.row hworker hstep
    · cases hstep

/-! ### What is read back -/

theorem physicalLines_lines {rows : List Bytes} (hrows : ∀ row ∈ rows, 10 ∉ row) {torn : Bytes} (htorn : 10 ∉ torn) :
    physicalLines (rows.flatMap (· ++ [10]) ++ torn) = rows := by
  have hplain : ∀ {text : Bytes}, 10 ∉ text → ∀ b ∈ text, (b == 10) = false := by
    intro text htext b hb
    exact beq_false_of_ne fun heq => htext (heq ▸ hb)
  induction rows with
  | nil =>
    rw [List.flatMap_nil, List.nil_append, physicalLines, List.splitOnP_eq_singleton (hplain htorn)]
    rfl
  | cons row rows ih =>
    have hbytes : (row :: rows).flatMap (· ++ [10]) ++ torn = row ++ 10 :: (rows.flatMap (· ++ [10]) ++ torn) := by
      rw [List.flatMap_cons, List.append_assoc, List.append_assoc]
      rfl
    rw [hbytes, physicalLines, List.splitOnP_append_cons_of_forall_mem (hplain (hrows row (List.mem_cons_self ..))) 10 rfl,
      List.dropLast_cons_of_ne_nil (List.splitOnP_ne_nil _ _)]
    exact congrArg (row :: ·) (ih fun row hrow => hrows row (List.mem_cons_of_mem _ hrow))

/-- The graph and the message, from the lines that are kept. -/
theorem replay_shown {header : Text} (h : lsmProcessRecorderHeaderMatches header = true) (rest : Bytes) :
    processLogPlotComplete (processLogPlotWorker numerals (header ++ rest)) =
      shown (keptSamples numerals false (physicalLines rest)) := by
  have hreplayed := replay_samples numerals h rest
  obtain ⟨hlines, tail, htail, hrest⟩ := physicalLines_eq rest
  have hloop : samples numerals storeSample {} rest =
      (keptSamples numerals false (physicalLines rest)).foldl storeSample {} := by
    conv_lhs => rw [hrest]
    exact samples_lines numerals storeSample hlines htail false {}
  obtain ⟨hholds, herror⟩ := holdsSamples_foldl (keptSamples numerals false (physicalLines rest))
  rw [worker_header numerals h, hloop] at hreplayed ⊢
  have hcount := hholds.count_eq
  generalize keptSamples numerals false (physicalLines rest) = stored at hcount herror hreplayed
  generalize stored.foldl storeSample {} = result at hcount herror hreplayed
  have hempty : result.count = 0 ↔ stored = [] := by
    rw [← List.length_eq_zero_iff, hcount, lsmHistoryLength]
    omega
  rw [shown, ← hreplayed]
  refine Prod.ext ?_ rfl
  rw [reportEmpty]
  by_cases hnone : stored = []
  · rw [if_pos ⟨hempty.mpr hnone, herror⟩, if_pos hnone]
    rfl
  · rw [if_neg fun hboth => hnone (hempty.mp hboth.1), if_neg hnone, processLogPlotComplete, herror]

theorem keptSamples_plain {rows : List Bytes} (h : ∀ row ∈ rows, PlainRow row) :
    keptSamples numerals false rows = rows.filterMap (lineSample numerals) := by
  refine (keptSamples_eq numerals).mpr ⟨nofun, ?_⟩
  refine List.isChain_iff_getElem.mpr fun i hi hnul => absurd (List.mem_of_mem_drop hnul) ?_
  exact (h _ (List.getElem_mem _)).noNul

/-- The rows that are whole are read back, and what is behind them is not. -/
theorem Written.replay {log : List Event} {s : RecordingFile} {torn : Bytes} (h : Written numerals localtime log s torn)
    (hfile : s.state.file ⊆ acceptedNodes log) (hnodes : ∀ node ∈ acceptedNodes log, Replayable localtime node) :
    processLogPlotComplete (processLogPlotWorker numerals (recorderCsvHeader ++ [10] ++ s.bytes)) =
      shown (s.state.file.map (metrics numerals)) := by
  have hline : ∀ node ∈ s.state.file, ∃ row, (writeRecord numerals localtime node).getD [] = row ++ [10] ∧
      PlainRow row ∧ lineSample numerals row = some (metrics numerals node) := by
    intro node hnode
    obtain ⟨line, hline⟩ := Option.isSome_iff_exists.mp (h.rows node hnode)
    rw [hline]
    exact written_line (hnodes node (hfile hnode)) hline
  have htorn : 10 ∉ torn := by
    rcases h.torn with rfl | ⟨-, node, hnode, line, hline, count, hcount, rfl⟩
    · exact List.not_mem_nil
    · obtain ⟨row, rfl, hplain, -⟩ := written_line (hnodes node hnode) hline
      rw [List.length_append, List.length_singleton] at hcount
      rw [List.take_append_of_le_length (Nat.le_of_lt_succ hcount)]
      exact fun hmem => hplain.noNewline (List.mem_of_mem_take hmem)
  obtain ⟨rows, hrows⟩ : ∃ rows : List Bytes, rowBytes numerals localtime s.state.file = rows.flatMap (· ++ [10]) ∧
      (∀ row ∈ rows, PlainRow row) ∧ rows.filterMap (lineSample numerals) = s.state.file.map (metrics numerals) := by
    generalize s.state.file = nodes at hline
    induction nodes with
    | nil => exact ⟨[], rfl, nofun, rfl⟩
    | cons node nodes ih =>
      obtain ⟨row, hrow, hplain, hsample⟩ := hline node (List.mem_cons_self ..)
      obtain ⟨rows, hbytes, hplains, hsamples⟩ := ih fun node hnode => hline node (List.mem_cons_of_mem _ hnode)
      refine ⟨row :: rows, ?_, List.forall_mem_cons.mpr ⟨hplain, hplains⟩, ?_⟩
      · rw [rowBytes, List.flatMap_cons, hrow, ← rowBytes, hbytes, List.flatMap_cons]
      · rw [List.filterMap_cons_some hsample, hsamples, List.map_cons]
  obtain ⟨hbytes, hplains, hsamples⟩ := hrows
  rw [replay_shown (by decide), h.bytes, hbytes,
    physicalLines_lines (fun row hrow => (hplains row hrow).noNewline) htorn, keptSamples_plain hplains, hsamples]

/-! ### Whole runs -/

theorem OnFile.run {actions : List FileAction} {s : RecordingFile}
    (hrun : (fileMachine numerals localtime).run {} actions = some s) :
    OnFile numerals localtime ((fileMachine numerals localtime).trace fileEvents {} actions) s :=
  (fileMachine numerals localtime).run_trace_invariant fileEvents (fun _ _ => True) (OnFile numerals localtime)
    (fun _ _ _ _ h _ hstep => h.step hstep) .create ((fileMachine numerals localtime).admissible_true _ actions) hrun

def sampleProcess : Process.LsmProcessInfo :=
  {pid := 42, cpuPercent := 25 / 2, memoryPercent := 13 / 4, rssBytes := 1000, writeBytes := 7, threads := 3}

end SystemMonitor.Recorder
