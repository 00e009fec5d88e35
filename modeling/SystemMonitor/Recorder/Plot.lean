import SystemMonitor.Lib.Ring
import SystemMonitor.Recorder.Metrics

/-! A recording read back for a plot.

A worker reads the file with `fgets` into a fixed buffer and keeps the metrics of the rows
in circular arrays, from which the graph is filled when it is done. The file is what can
be read of it, without an I/O error. -/
namespace SystemMonitor.Recorder
open Lib Lines

/-- `sizeof(line)`, less the terminator. -/
def lineRoom : Nat := 2047

def lsmHistoryLength : Nat := 600

structure ProcessLogPlotResult where
  errorMessage : Option Text := none
  cpu : Nat → ℚ := fun _ => 0
  memory : Nat → ℚ := fun _ => 0
  count : Nat := 0
  next : Nat := 0

def storeSample (result : ProcessLogPlotResult) (sample : ℚ × ℚ) : ProcessLogPlotResult :=
  {result with
    cpu := Function.update result.cpu result.next sample.1
    memory := Function.update result.memory result.next sample.2
    next := (result.next + 1) % lsmHistoryLength
    count := if result.count < lsmHistoryLength then result.count + 1 else result.count}

/-- `fgets` with the C string in the buffer, and what is left of the file. -/
def readLine (bytes : Bytes) : Text × Bytes :=
  let got := fgets lineRoom bytes
  (cString got.1, got.2)

/-- The inner loop, which discards the rest of a record; every turn takes at least one byte. -/
def discardLoop : Nat → Bytes → Bytes
  | 0, bytes => bytes
  | _ + 1, [] => []
  | fuel + 1, b :: bytes =>
    let (line, rest) := readLine (b :: bytes)
    if 10 ∈ line then rest else discardLoop fuel rest

section
variable (numerals : Numerals) {σ : Type} (onSample : σ → ℚ × ℚ → σ)

/-- The loop after the header, with what is done with the samples. -/
def sampleLoop : Nat → σ → Bytes → σ
  | 0, result, _ => result
  | _ + 1, result, [] => result
  | fuel + 1, result, b :: bytes =>
    let (line, rest) := readLine (b :: bytes)
    if 10 ∉ line then sampleLoop fuel result (discardLoop rest.length rest)
    else
      match lsmProcessRecorderParseMetrics numerals line (0, 0) with
      | (false, _) => sampleLoop fuel result rest
      | (true, sample) => sampleLoop fuel (onSample result sample) rest

end

variable (numerals : Numerals)

/-- A recording without samples is an error. -/
def reportEmpty (result : ProcessLogPlotResult) : ProcessLogPlotResult :=
  if result.count = 0 ∧ result.errorMessage = none then
    {result with errorMessage := some (ascii "The process recording contains no valid samples.")}
  else result

def processLogPlotWorker (file : Bytes) : ProcessLogPlotResult :=
  reportEmpty (match file with
    | [] => {}
    | b :: bytes =>
      let (line, rest) := readLine (b :: bytes)
      if lsmProcessRecorderHeaderMatches line then sampleLoop numerals storeSample rest.length {} rest
      else {errorMessage := some (ascii "Not a supported System Monitor process recording.")})

/-- The message that is shown, and the samples that are pushed to the graph. -/
def processLogPlotComplete (result : ProcessLogPlotResult) : Option Text × List (ℚ × ℚ) :=
  match result.errorMessage with
  | some message => (some message, [])
  | none =>
    let first := if result.count = lsmHistoryLength then result.next else 0
    (none, (List.range result.count).map fun offset =>
      let index := (first + offset) % lsmHistoryLength
      (result.cpu index, result.memory index))

end SystemMonitor.Recorder
