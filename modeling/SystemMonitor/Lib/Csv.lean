import Mathlib.Data.List.Basic

/-! Comma-separated values as RFC 4180 has them, read byte by byte.

A field is plain bytes, or it is quoted with every quote inside doubled. A line ends
with a line feed, with a carriage return before it or without. `read_lines`: lines made of
encoded fields are read back as the values of those fields. -/
namespace SystemMonitor.Lib.Csv

/-- Comma, quote, carriage return and line feed. -/
def special (b : UInt8) : Bool := b == 44 || b == 34 || b == 13 || b == 10

/-! ### The reader -/

inductive Mode where
  | start | plain | quoted | closing | carriage
  deriving DecidableEq

structure Reader where
  mode : Mode := .start
  field : List UInt8 := []
  record : List (List UInt8) := []
  records : List (List (List UInt8)) := []

namespace Reader

def endField (r : Reader) : Reader := { r with mode := .start, field := [], record := r.record ++ [r.field] }

def endRecord (r : Reader) : Reader := { records := r.records ++ [r.record ++ [r.field]] }

/-- What may follow a field. -/
def delimiter (r : Reader) (b : UInt8) : Option Reader :=
  if b = 44 then some r.endField
  else if b = 10 then some r.endRecord
  else if b = 13 then some { r with mode := .carriage }
  else none

def step (r : Reader) (b : UInt8) : Option Reader :=
  match r.mode with
  | .start =>
    if b = 34 then some { r with mode := .quoted }
    else if special b then r.delimiter b
    else some { r with mode := .plain, field := r.field ++ [b] }
  | .plain => if special b then r.delimiter b else some { r with field := r.field ++ [b] }
  | .quoted => if b = 34 then some { r with mode := .closing } else some { r with field := r.field ++ [b] }
  | .closing => if b = 34 then some { r with mode := .quoted, field := r.field ++ [b] } else r.delimiter b
  | .carriage => if b = 10 then some r.endRecord else none

/-- The end of the file. The last line may lack its line break. -/
def finish (r : Reader) : Option (List (List (List UInt8))) :=
  match r.mode with
  | .start => if r.record = [] then some r.records else some r.endRecord.records
  | .plain | .closing => some r.endRecord.records
  | .quoted | .carriage => none

end Reader

/-- The records of a file. -/
def read (bytes : List UInt8) : Option (List (List (List UInt8))) :=
  (bytes.foldlM Reader.step {}).bind Reader.finish

/-! ### Encoded fields -/

def doubled (value : List UInt8) : List UInt8 := value.flatMap fun b => if b = 34 then [34, 34] else [b]

inductive Encodes : List UInt8 → List UInt8 → Prop
  | plain {value : List UInt8} : (∀ b ∈ value, special b = false) → Encodes value value
  | quoted (value : List UInt8) : Encodes (34 :: (doubled value ++ [34])) value

/-- A field as it is written, with the value it stands for. -/
structure Cell where
  encoded : List UInt8
  value : List UInt8
  valid : Encodes encoded value

/-- A line of the file. -/
def line : List Cell → List UInt8
  | [] => [10]
  | [cell] => cell.encoded ++ [10]
  | cell :: rest => cell.encoded ++ 44 :: line rest

/-! ### Reading a field -/

theorem fold_plain {value : List UInt8} (h : ∀ b ∈ value, special b = false) (r : Reader) (hmode : r.mode = .plain) :
    value.foldlM Reader.step r = some { r with field := r.field ++ value } := by
  induction value generalizing r with
  | nil => simp
  | cons b rest ih =>
    have hb := h b (List.mem_cons_self ..)
    have hstep : r.step b = some { r with field := r.field ++ [b] } := by simp [Reader.step, hmode, hb]
    rw [List.foldlM_cons, hstep]
    show rest.foldlM Reader.step _ = _
    rw [ih (fun c hc => h c (List.mem_cons_of_mem b hc)) { r with field := r.field ++ [b] } hmode]
    simp

/-- Inside quotes a doubled quote is a quote, and the rest stands for itself. -/
theorem fold_doubled (value : List UInt8) (r : Reader) (hmode : r.mode = .quoted) :
    (doubled value).foldlM Reader.step r = some { r with field := r.field ++ value } := by
  induction value generalizing r with
  | nil => simp [doubled]
  | cons b rest ih =>
    have hhead : (if b = 34 then [34, 34] else [b]).foldlM Reader.step r = some { r with field := r.field ++ [b] } := by
      by_cases hb : b = 34
      · simp [hb, Reader.step, hmode]
      · simp [hb, Reader.step, hmode]
    have hsplit : doubled (b :: rest) = (if b = 34 then [34, 34] else [b]) ++ doubled rest := by
      rw [doubled, List.flatMap_cons]
      rfl
    rw [hsplit, List.foldlM_append, hhead]
    show (doubled rest).foldlM Reader.step _ = _
    rw [ih { r with field := r.field ++ [b] } hmode]
    simp

/-- A field may end here. -/
def Mode.Closed (mode : Mode) : Prop := mode = .start ∨ mode = .plain ∨ mode = .closing

theorem fold_encoded {encoded value : List UInt8} (h : Encodes encoded value) (record : List (List UInt8))
    (records : List (List (List UInt8))) :
    ∃ mode : Mode, mode.Closed ∧ encoded.foldlM Reader.step { record, records } = some { mode, field := value, record, records } := by
  cases h with
  | plain hplain =>
    cases encoded with
    | nil => exact ⟨.start, .inl rfl, rfl⟩
    | cons b rest =>
      refine ⟨.plain, .inr (.inl rfl), ?_⟩
      have hb := hplain b (List.mem_cons_self ..)
      have hquote : b ≠ 34 := fun h => by simp [h, special] at hb
      have hstep : Reader.step { record, records } b = some { mode := .plain, field := [b], record, records } := by
        simp [Reader.step, hb, hquote]
      rw [List.foldlM_cons, hstep]
      exact fold_plain (fun c hc => hplain c (List.mem_cons_of_mem b hc)) _ rfl
  | quoted =>
    refine ⟨.closing, .inr (.inr rfl), ?_⟩
    have hopen : Reader.step { record, records } 34 = some { mode := .quoted, record, records } := rfl
    rw [List.foldlM_cons, hopen]
    show (doubled value ++ [34]).foldlM Reader.step _ = _
    rw [List.foldlM_append, fold_doubled value _ rfl]
    rfl

theorem step_comma {r : Reader} (h : r.mode.Closed) : r.step 44 = some r.endField := by
  rcases h with h | h | h <;> simp [Reader.step, h, special, Reader.delimiter]

theorem step_lineFeed {r : Reader} (h : r.mode.Closed) : r.step 10 = some r.endRecord := by
  rcases h with h | h | h <;> simp [Reader.step, h, special, Reader.delimiter]

/-! ### Reading a file -/

theorem fold_line {cells : List Cell} (hne : cells ≠ []) (record : List (List UInt8)) (records : List (List (List UInt8))) :
    (line cells).foldlM Reader.step { record, records } = some { records := records ++ [record ++ cells.map Cell.value] } := by
  induction cells generalizing record with
  | nil => exact absurd rfl hne
  | cons cell rest ih =>
    obtain ⟨mode, hclosed, hfield⟩ := fold_encoded cell.valid record records
    by_cases hrest : rest = []
    · subst hrest
      rw [line, List.foldlM_append, hfield]
      show Reader.step _ 10 >>= _ = _
      rw [step_lineFeed hclosed]
      rfl
    · have hline : line (cell :: rest) = cell.encoded ++ 44 :: line rest := by
        cases rest with
        | nil => exact absurd rfl hrest
        | cons => rfl
      rw [hline, List.foldlM_append, hfield]
      show Reader.step _ 44 >>= _ = _
      rw [step_comma hclosed]
      show (line rest).foldlM Reader.step { record := record ++ [cell.value], records } = _
      rw [ih hrest]
      simp

/-- **What was written field by field is read back field by field.** -/
theorem read_lines {rows : List (List Cell)} (h : ∀ row ∈ rows, row ≠ []) :
    read (rows.flatMap line) = some (rows.map fun row => row.map Cell.value) := by
  have hfold : ∀ records, (rows.flatMap line).foldlM Reader.step { records } =
      some { records := records ++ rows.map fun row => row.map Cell.value } := by
    induction rows with
    | nil => simp
    | cons row rest ih =>
      intro records
      rw [List.flatMap_cons, List.foldlM_append, fold_line (h row (List.mem_cons_self ..))]
      show (rest.flatMap line).foldlM Reader.step _ = _
      rw [ih fun other hother => h other (List.mem_cons_of_mem row hother)]
      simp
  rw [read, hfold]
  rfl

example : read [97, 44, 34, 98, 34, 34, 44, 34, 13, 10, 44] = some [[[97], [98, 34, 44]], [[], []]] := by decide

end SystemMonitor.Lib.Csv
