import SystemMonitor.Lib.Csv
import SystemMonitor.Pages.Rows
import SystemMonitor.Process.Model
import SystemMonitor.Recorder.Metrics

/-! Processes exported as CSV.

A selected process is written as one line of twenty-two fields, some of which depend on what was
available. `write_process_export_spec`: the file is the header and one line for each
selected process, and a reader of RFC 4180 finds every value under its heading. -/
namespace SystemMonitor.Pages.Export
open Lib
open Process (LsmProcessPriority)

/-! ### Common -/

/-- Where a spreadsheet would start a formula: blanks and control bytes are skipped. -/
def spreadsheetNeedsFormulaEscape : Text → Bool
  | [] => false
  | b :: rest =>
    if b ≤ 32 ∨ b = 127 then spreadsheetNeedsFormulaEscape rest else b == 61 || b == 43 || b == 45 || b == 64

/-- A text that a spreadsheet shows as it is. -/
def Harmless (text : Text) : Prop :=
  (∀ b ∈ text, 32 ≤ b ∧ b ≠ 127) ∧ spreadsheetNeedsFormulaEscape text = false

/-- Common's CSV and number texts, with what the export relies on. -/
structure CsvHelpers where
  numerals : Recorder.Numerals
  /-- `infiltratr_escape_csv_field` for spreadsheets; `none`: it failed, or there was no memory. -/
  escapeCsvField : Text → Option Text
  /-- The text that a spreadsheet is given for a text. -/
  cellText : Text → Text
  /-- `infiltratr_format_fixed_ascii` with three decimals and 64 bytes; `none`: it failed. -/
  formatFixedAscii : Double → Option Text
  escape_encodes : ∀ text encoded, escapeCsvField text = some encoded → Csv.Encodes encoded (cellText text)
  cellText_harmless : ∀ text, Harmless text → cellText text = text
  format_finite : ∀ x, formatFixedAscii (.finite x) = numerals.formatFixed x
  format_plain : ∀ value text, formatFixedAscii value = some text → ∀ b ∈ text, Csv.special b = false

theorem isDigit_plain {b : UInt8} (h : Decimal.isDigit b = true) : Csv.special b = false := by
  have hne : b ≠ 44 ∧ b ≠ 34 ∧ b ≠ 13 ∧ b ≠ 10 := by
    refine ⟨?_, ?_, ?_, ?_⟩ <;> (rintro rfl; exact absurd h (by decide))
  simp [Csv.special, hne]

/-- The documented behaviour as functions. -/
def documentedCell (text : Text) : Text :=
  (if spreadsheetNeedsFormulaEscape text then [39] else []) ++ text.filter fun b => 32 ≤ b && b != 127

def documentedFormat : Double → Option Text
  | .finite x => Recorder.formatThree x
  | _ => none

theorem documentedCell_harmless (text : Text) (h : Harmless text) : documentedCell text = text := by
  rw [documentedCell, h.2]
  refine List.filter_eq_self.mpr fun b hb => ?_
  simp [h.1 b hb]

theorem documentedFormat_plain (value : Double) (text : Text) (h : documentedFormat value = some text) :
    ∀ b ∈ text, Csv.special b = false := by
  intro b hb
  cases value with
  | finite x =>
    rcases (Recorder.Numerals.documented.formatFixed_text x text h).2.2 b hb with rfl | rfl | hdigit
    · rfl
    · rfl
    · exact isDigit_plain hdigit
  | infinite => cases h
  | nan => cases h

theorem documentedEscape_encodes (text encoded : Text)
    (h : some (34 :: (Csv.doubled (documentedCell text) ++ [34])) = some encoded) :
    Csv.Encodes encoded (documentedCell text) := by
  cases h
  exact .quoted _

def CsvHelpers.documented : CsvHelpers where
  numerals := .documented
  escapeCsvField text := some (34 :: (Csv.doubled (documentedCell text) ++ [34]))
  cellText := documentedCell
  formatFixedAscii := documentedFormat
  escape_encodes := documentedEscape_encodes
  cellText_harmless := documentedCell_harmless
  format_finite _ := rfl
  format_plain := documentedFormat_plain

/-! ### The selection -/

/-- A row with what the export reads of it beside the pages. -/
structure LsmProcessInfo extends Pages.LsmProcessInfo where
  executable : Chars 512 := .empty
  threads : Nat := 0
  handleCount : Nat := 0
  handleCountAvailable : Bool := false
  priority : LsmProcessPriority := .high
  readBytes : Nat := 0
  writeBytes : Nat := 0
  ioTotalsAvailable : Bool := false
  contextSwitches : Nat := 0
  pageFaults : Nat := 0
  cpuTimeNanoseconds : Nat := 0
  gpuMemoryBytes : Nat := 0

/-- Rows and selection. `none` is a null pointer. -/
structure LsmProcessExportView where
  processes : Option (List LsmProcessInfo)
  selectedPid : Nat := 0
  selectedInstanceId : Nat := 0
  selectedGroupCount : Nat := 0
  selectedGroupPids : Option (Fin selectedGroupCount → Nat) := none
  selectedGroupInstanceIds : Option (Fin selectedGroupCount → Nat) := none

def lsmProcessExportContains (view : LsmProcessExportView) (process : LsmProcessInfo) : Bool :=
  if process.pid = 0 ∨ process.instanceId = 0 then false
  else if view.selectedGroupCount = 0 then
    view.selectedPid != 0 && view.selectedInstanceId != 0 && process.pid == view.selectedPid &&
      process.instanceId == view.selectedInstanceId
  else
    match view.selectedGroupPids, view.selectedGroupInstanceIds with
    | some pids, some instanceIds =>
      (List.finRange view.selectedGroupCount).any fun index =>
        pids index == process.pid && instanceIds index == process.instanceId
    | _, _ => false

def lsmProcessExportSelectionCount (view : LsmProcessExportView) : Nat :=
  match view.processes with
  | none => 0
  | some processes =>
    processes.foldl (fun count process => if lsmProcessExportContains view process then count + 1 else count) 0

/-! ### The file -/

def lsmProcessPriorityName : LsmProcessPriority → Text
  | .high => ascii "High"
  | .aboveNormal => ascii "Above normal"
  | .normal => ascii "Normal"
  | .belowNormal => ascii "Below normal"
  | .low => ascii "Low"

def gpuEngineText (process : LsmProcessInfo) : Text :=
  if process.gpuEngine.text ≠ [] then process.gpuEngine.text else ascii "N/A"

/-- A line, or `none` where a field cannot be formatted. -/
def csvRow (lib : CsvHelpers) (process : LsmProcessInfo) : Option Text := do
  let cpuPercent ← lib.formatFixedAscii process.cpuPercent
  let readRate ← (if process.ioRateAvailable then lib.formatFixedAscii process.readBytesPerSec else some [])
  let writeRate ← (if process.ioRateAvailable then lib.formatFixedAscii process.writeBytesPerSec else some [])
  let gpuPercent ← (if process.gpuAvailable then lib.formatFixedAscii process.gpuPercent else some [])
  let name ← lib.escapeCsvField process.name.text
  let user ← lib.escapeCsvField process.user.text
  let state ← lib.escapeCsvField process.state.text
  let gpuEngine ← lib.escapeCsvField (gpuEngineText process)
  let priority ← lib.escapeCsvField (lsmProcessPriorityName process.priority)
  let executable ← lib.escapeCsvField process.executable.text
  let command ← lib.escapeCsvField process.command.text
  pure (name ++
    (44 :: Decimal.print process.pid ++ 44 :: Decimal.print process.ppid ++ [44]) ++
    user ++ [44] ++ state ++
    (44 :: cpuPercent ++ 44 :: Decimal.print process.cpuTimeNanoseconds ++ 44 :: Decimal.print process.rssBytes ++
      44 :: Decimal.print process.threads ++ 44 :: readRate ++ 44 :: writeRate ++ [44]) ++
    (if process.gpuAvailable then gpuPercent else []) ++ [44] ++
    gpuEngine ++
    (44 :: Decimal.print process.gpuMemoryBytes ++ [44]) ++
    (if process.ioTotalsAvailable then Decimal.print process.readBytes ++ 44 :: Decimal.print process.writeBytes ++ [44]
      else [44, 44]) ++
    (if process.handleCountAvailable then Decimal.print process.handleCount ++ [44] else [44]) ++
    (Decimal.print process.contextSwitches ++ 44 :: Decimal.print process.pageFaults ++ [44]) ++
    priority ++ [44] ++ executable ++ [44] ++ command ++ [10])

def exportHeader : Text :=
  ascii "Name,PID,Parent PID,User,Status,CPU (%),CPU time (ns)," ++
    ascii "Memory (bytes),Threads,Read (bytes/s),Write (bytes/s),GPU (%)," ++
    ascii "GPU engine,GPU memory (bytes),Read total (bytes),Write total (bytes)," ++
    ascii "Handles,Context switches,Page faults,Priority,Executable,Command\n"

/-- The file after one more process. -/
def writeRow (lib : CsvHelpers) (view : LsmProcessExportView) (file : Text) (process : LsmProcessInfo) : Option Text :=
  if lsmProcessExportContains view process then (csvRow lib process).map (file ++ ·) else some file

def writeProcessExport (lib : CsvHelpers) (view : LsmProcessExportView) : Option Text :=
  (view.processes.getD []).foldlM (writeRow lib view) exportHeader

/-! ### What a reader should find -/

/-- The selected processes in the order of the snapshot. -/
def selected (view : LsmProcessExportView) : List LsmProcessInfo :=
  (view.processes.getD []).filter (lsmProcessExportContains view)

/-- A heading, with the value that belongs under it. -/
structure Column where
  heading : String
  value : CsvHelpers → LsmProcessInfo → Text

/-- A value that is empty where it is not available. -/
def ifAvailable (available : Bool) (value : Text) : Text := if available then value else []

/-- A percentage or a rate, as it is formatted. -/
def fixedText (lib : CsvHelpers) (value : Double) : Text := (lib.formatFixedAscii value).getD []

def columns : List Column := [
  ⟨"Name", fun lib process => lib.cellText process.name.text⟩,
  ⟨"PID", fun _ process => Decimal.print process.pid⟩,
  ⟨"Parent PID", fun _ process => Decimal.print process.ppid⟩,
  ⟨"User", fun lib process => lib.cellText process.user.text⟩,
  ⟨"Status", fun lib process => lib.cellText process.state.text⟩,
  ⟨"CPU (%)", fun lib process => fixedText lib process.cpuPercent⟩,
  ⟨"CPU time (ns)", fun _ process => Decimal.print process.cpuTimeNanoseconds⟩,
  ⟨"Memory (bytes)", fun _ process => Decimal.print process.rssBytes⟩,
  ⟨"Threads", fun _ process => Decimal.print process.threads⟩,
  ⟨"Read (bytes/s)", fun lib process => ifAvailable process.ioRateAvailable (fixedText lib process.readBytesPerSec)⟩,
  ⟨"Write (bytes/s)", fun lib process => ifAvailable process.ioRateAvailable (fixedText lib process.writeBytesPerSec)⟩,
  ⟨"GPU (%)", fun lib process => ifAvailable process.gpuAvailable (fixedText lib process.gpuPercent)⟩,
  ⟨"GPU engine", fun lib process => lib.cellText (gpuEngineText process)⟩,
  ⟨"GPU memory (bytes)", fun _ process => Decimal.print process.gpuMemoryBytes⟩,
  ⟨"Read total (bytes)", fun _ process => ifAvailable process.ioTotalsAvailable (Decimal.print process.readBytes)⟩,
  ⟨"Write total (bytes)", fun _ process => ifAvailable process.ioTotalsAvailable (Decimal.print process.writeBytes)⟩,
  ⟨"Handles", fun _ process => ifAvailable process.handleCountAvailable (Decimal.print process.handleCount)⟩,
  ⟨"Context switches", fun _ process => Decimal.print process.contextSwitches⟩,
  ⟨"Page faults", fun _ process => Decimal.print process.pageFaults⟩,
  ⟨"Priority", fun lib process => lib.cellText (lsmProcessPriorityName process.priority)⟩,
  ⟨"Executable", fun lib process => lib.cellText process.executable.text⟩,
  ⟨"Command", fun lib process => lib.cellText process.command.text⟩]

def headings : List Text := columns.map fun column => ascii column.heading

def record (lib : CsvHelpers) (process : LsmProcessInfo) : List Text := columns.map fun column => column.value lib process

/-- Everything in the process can be formatted. -/
def formats (lib : CsvHelpers) (process : LsmProcessInfo) : Bool :=
  (lib.formatFixedAscii process.cpuPercent).isSome &&
    (!process.ioRateAvailable ||
      (lib.formatFixedAscii process.readBytesPerSec).isSome && (lib.formatFixedAscii process.writeBytesPerSec).isSome) &&
    (!process.gpuAvailable || (lib.formatFixedAscii process.gpuPercent).isSome) &&
    [process.name.text, process.user.text, process.state.text, gpuEngineText process,
      lsmProcessPriorityName process.priority, process.executable.text, process.command.text].all fun text =>
        (lib.escapeCsvField text).isSome

/-! ### One line -/

section
variable {lib : CsvHelpers}

def escapedCell {text encoded : Text} (h : lib.escapeCsvField text = some encoded) : Csv.Cell where
  encoded := encoded
  value := lib.cellText text
  valid := lib.escape_encodes text encoded h

def plainCell (text : Text) (h : ∀ b ∈ text, Csv.special b = false) : Csv.Cell := ⟨text, text, .plain h⟩

theorem print_plain (n : Nat) : ∀ b ∈ Decimal.print n, Csv.special b = false := fun _ hb => isDigit_plain (Decimal.mem_print hb)

theorem ifAvailable_plain (available : Bool) {text : Text} (h : ∀ b ∈ text, Csv.special b = false) :
    ∀ b ∈ ifAvailable available text, Csv.special b = false := by
  cases available with
  | false => exact fun b hb => absurd hb (List.not_mem_nil)
  | true => exact h

theorem fixedText_plain (value : Double) : ∀ b ∈ fixedText lib value, Csv.special b = false := by
  rw [fixedText]
  cases hformat : lib.formatFixedAscii value with
  | none => exact fun b hb => absurd hb (List.not_mem_nil)
  | some text => exact lib.format_plain value text hformat

theorem fixedText_eq {value : Double} {text : Text} (h : lib.formatFixedAscii value = some text) : text = fixedText lib value := by
  rw [fixedText, h]
  rfl

theorem ifAvailable_eq {available : Bool} {value : Double} {text : Text}
    (h : (if available then lib.formatFixedAscii value else some []) = some text) :
    text = ifAvailable available (fixedText lib value) := by
  cases available with
  | false => exact (Option.some.inj h).symm
  | true => exact fixedText_eq h

/-- A line has the fields of the columns, whatever is available. -/
theorem csvRow_line {process : LsmProcessInfo} {text : Text} (h : csvRow lib process = some text) :
    ∃ cells : List Csv.Cell, text = Csv.line cells ∧ cells.map Csv.Cell.value = record lib process := by
  simp only [csvRow, Option.bind_eq_bind, Option.bind_eq_some_iff, Option.pure_def, Option.some.injEq] at h
  obtain ⟨cpuPercent, hcpu, readRate, hread, writeRate, hwrite, gpuPercent, hgpu, name, hname, user, huser, state, hstate,
    gpuEngine, hengine, priority, hpriority, executable, hexecutable, command, hcommand, rfl⟩ := h
  refine ⟨[escapedCell hname, plainCell _ (print_plain process.pid), plainCell _ (print_plain process.ppid),
    escapedCell huser, escapedCell hstate, plainCell _ (fixedText_plain process.cpuPercent),
    plainCell _ (print_plain process.cpuTimeNanoseconds), plainCell _ (print_plain process.rssBytes),
    plainCell _ (print_plain process.threads),
    plainCell _ (ifAvailable_plain process.ioRateAvailable (fixedText_plain process.readBytesPerSec)),
    plainCell _ (ifAvailable_plain process.ioRateAvailable (fixedText_plain process.writeBytesPerSec)),
    plainCell _ (ifAvailable_plain process.gpuAvailable (fixedText_plain process.gpuPercent)),
    escapedCell hengine, plainCell _ (print_plain process.gpuMemoryBytes),
    plainCell _ (ifAvailable_plain process.ioTotalsAvailable (print_plain process.readBytes)),
    plainCell _ (ifAvailable_plain process.ioTotalsAvailable (print_plain process.writeBytes)),
    plainCell _ (ifAvailable_plain process.handleCountAvailable (print_plain process.handleCount)),
    plainCell _ (print_plain process.contextSwitches), plainCell _ (print_plain process.pageFaults),
    escapedCell hpriority, escapedCell hexecutable, escapedCell hcommand], ?_, rfl⟩
  rw [fixedText_eq hcpu, ifAvailable_eq hread, ifAvailable_eq hwrite, ifAvailable_eq hgpu]
  -- the separators of the conditional writes are those of the line in every combination
  cases process.gpuAvailable <;> cases process.ioTotalsAvailable <;> cases process.handleCountAvailable <;>
    simp [Csv.line, plainCell, escapedCell, ifAvailable]

theorem isSome_bind {α β : Type} {x : Option α} {f : α → Option β} {rest : Bool} (h : ∀ a, (f a).isSome = rest) :
    (x.bind f).isSome = (x.isSome && rest) := by
  cases x with
  | none => rfl
  | some a => exact h a

theorem csvRow_isSome (process : LsmProcessInfo) : (csvRow lib process).isSome = formats lib process := by
  have hrate : ∀ available value, (if available then lib.formatFixedAscii value else some []).isSome =
      (!available || (lib.formatFixedAscii value).isSome) := by
    intro available value
    cases available <;> rfl
  have hbinds : (csvRow lib process).isSome = _ :=
    isSome_bind fun _ => isSome_bind fun _ => isSome_bind fun _ => isSome_bind fun _ => isSome_bind fun _ =>
      isSome_bind fun _ => isSome_bind fun _ => isSome_bind fun _ => isSome_bind fun _ => isSome_bind fun _ =>
        isSome_bind fun _ => rfl
  rw [hbinds, hrate, hrate, hrate, formats]
  cases process.ioRateAvailable <;> simp [Bool.and_assoc]

/-! ### The whole file -/

theorem rows_lines {processes : List LsmProcessInfo} {rows : List Text} (h : processes.mapM (csvRow lib) = some rows) :
    ∃ lines : List (List Csv.Cell), rows.flatten = lines.flatMap Csv.line ∧
      lines.map (·.map Csv.Cell.value) = processes.map (record lib) := by
  induction processes generalizing rows with
  | nil =>
    cases h
    exact ⟨[], rfl, rfl⟩
  | cons process rest ih =>
    rw [List.mapM_cons] at h
    obtain ⟨text, hrow, h⟩ := Option.bind_eq_some_iff.mp h
    obtain ⟨texts, hrest, h⟩ := Option.bind_eq_some_iff.mp h
    cases h
    obtain ⟨cells, rfl, hvalues⟩ := csvRow_line hrow
    obtain ⟨lines, hlines, hrecords⟩ := ih hrest
    refine ⟨cells :: lines, ?_, ?_⟩
    · rw [List.flatten_cons, hlines, List.flatMap_cons]
    · rw [List.map_cons, hvalues, hrecords, List.map_cons]

theorem rows_isSome (processes : List LsmProcessInfo) :
    (processes.mapM (csvRow lib)).isSome = processes.all (formats lib) := by
  induction processes with
  | nil => rfl
  | cons process rest ih =>
    rw [List.mapM_cons, List.all_cons, ← csvRow_isSome, ← ih]
    refine isSome_bind fun text => ?_
    cases rest.mapM (csvRow lib) with
    | none => rfl
    | some texts => rfl

/-- Each selected process adds its line, and no other one adds anything. -/
theorem writeRows_eq (view : LsmProcessExportView) (processes : List LsmProcessInfo) (file : Text) :
    processes.foldlM (writeRow lib view) file =
      ((processes.filter (lsmProcessExportContains view)).mapM (csvRow lib)).map fun rows => file ++ rows.flatten := by
  induction processes generalizing file with
  | nil => simp
  | cons process rest ih =>
    rw [List.foldlM_cons, writeRow]
    split
    next hselected =>
      rw [List.filter_cons_of_pos hselected, List.mapM_cons]
      cases csvRow lib process with
      | none => rfl
      | some text =>
        show rest.foldlM (writeRow lib view) (file ++ text) = _
        rw [ih]
        cases (rest.filter (lsmProcessExportContains view)).mapM (csvRow lib) with
        | none => rfl
        | some rows => simp
    next hother =>
      rw [List.filter_cons_of_neg hother]
      exact ih file

end

theorem selectionCount_eq (view : LsmProcessExportView) :
    lsmProcessExportSelectionCount view = (selected view).length := by
  rw [lsmProcessExportSelectionCount, selected]
  cases view.processes with
  | none => rfl
  | some processes =>
    have hcount : ∀ count, processes.foldl (fun count process =>
        if lsmProcessExportContains view process then count + 1 else count) count =
          count + (processes.filter (lsmProcessExportContains view)).length := by
      induction processes with
      | nil => exact fun _ => rfl
      | cons process rest ih =>
        intro count
        rw [List.foldl_cons, ih, List.filter_cons]
        split
        · rw [List.length_cons]
          omega
        · rfl
    exact (hcount 0).trans (Nat.zero_add _)

theorem headings_plain (heading : Text) (h : heading ∈ headings) : ∀ b ∈ heading, Csv.special b = false := by
  have htest : (headings.all fun heading => heading.all fun b => !Csv.special b) = true := by decide
  intro b hb
  have hheading := List.all_eq_true.mp htest heading h
  exact (Bool.not_eq_true' _).mp (List.all_eq_true.mp hheading b hb)

def headingCells : List Csv.Cell := headings.pmap plainCell headings_plain

theorem exportHeader_line : exportHeader = Csv.line headingCells := by decide +kernel

theorem headingCells_value : headingCells.map Csv.Cell.value = headings := by
  rw [headingCells, List.map_pmap]
  exact (List.pmap_eq_map headings_plain).trans (List.map_id _)

/-- **The file is the selection.** It is the header and one line for each selected process, in
the order of the snapshot; a reader finds the headings, and for each of them the value of the
process. -/
theorem write_process_export_spec (lib : CsvHelpers) (view : LsmProcessExportView) :
    writeProcessExport lib view =
        ((selected view).mapM (csvRow lib)).map (fun rows => exportHeader ++ rows.flatten) ∧
      (writeProcessExport lib view).map Csv.read =
        (if (selected view).all (formats lib) then some (some (headings :: (selected view).map (record lib))) else none) ∧
      lsmProcessExportSelectionCount view = (selected view).length ∧
      headings.length = 22 ∧ ∀ process, (record lib process).length = 22 := by
  have hwritten : writeProcessExport lib view =
      ((selected view).mapM (csvRow lib)).map fun rows => exportHeader ++ rows.flatten :=
    writeRows_eq view (view.processes.getD []) exportHeader
  refine ⟨hwritten, ?_, selectionCount_eq view, rfl, fun _ => rfl⟩
  rw [hwritten, ← rows_isSome]
  cases hrows : (selected view).mapM (csvRow lib) with
  | none => rfl
  | some rows =>
    obtain ⟨lines, hlines, hrecords⟩ := rows_lines hrows
    have hne : ∀ line ∈ headingCells :: lines, line ≠ [] := by
      intro line hline hnil
      rcases List.mem_cons.mp hline with rfl | hline
      · have hheadings := headingCells_value
        rw [hnil] at hheadings
        exact List.cons_ne_nil _ _ hheadings.symm
      · have hvalues : line.map Csv.Cell.value ∈ (selected view).map (record lib) := hrecords ▸ List.mem_map_of_mem hline
        obtain ⟨process, -, hrecord⟩ := List.mem_map.mp hvalues
        rw [hnil] at hrecord
        exact List.cons_ne_nil _ _ hrecord
    have hfile : exportHeader ++ rows.flatten = (headingCells :: lines).flatMap Csv.line := by
      rw [exportHeader_line, hlines, List.flatMap_cons]
    show some (Csv.read (exportHeader ++ rows.flatten)) = some _
    rw [hfile, Csv.read_lines hne, List.map_cons, headingCells_value, hrecords]

end SystemMonitor.Pages.Export
