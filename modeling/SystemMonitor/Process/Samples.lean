import Mathlib.Data.List.Sort
import SystemMonitor.Lib.Journal
import SystemMonitor.Lib.LowerBound
import SystemMonitor.Process.Model

/-! The retained samples of the Linux process backend.

One sample per process of the last complete scan, in a vector sorted by PID. A
scan finds a process's sample by binary search, journals it before its first
change, and appends samples for PIDs it does not know; at the end it either
rolls the journal back or commits and re-sorts.

The retained texts are heap strings, and releasing one too early is how a
rollback would go wrong, so a string here is its address with its text and the
heap records which addresses were freed. -/
namespace SystemMonitor.Process
open Lib

/-! ### Heap strings -/

/-- A `strdup` of a `char[n]`: the address and the text behind it. -/
structure HeapString (n : Nat) where
  ref : Nat
  text : Chars n
  deriving DecidableEq

structure Heap where
  next : Nat := 0
  freed : List Nat := []
  deriving DecidableEq

/-- `free`, of a pointer that may be null. -/
def Heap.free {n : Nat} (heap : Heap) : Option (HeapString n) → Heap
  | none => heap
  | some string => {heap with freed := string.ref :: heap.freed}

/-- `if (p != q) free(p)`. -/
def Heap.freeUnless {n : Nat} (heap : Heap) (p q : Option (HeapString n)) : Heap :=
  if p.map HeapString.ref ≠ q.map HeapString.ref then heap.free p else heap

/-! ### Samples -/

def processMetadataRefreshSeconds : ℚ := 5
def processGpuRefreshSeconds : ℚ := 2
def processGpuNegativeRefreshSeconds : ℚ := 10

/-- A retained text with the time it was collected. -/
structure RetainedText (n : Nat) where
  value : Option (HeapString n) := none
  sampledAt : ℚ := 0
  deriving DecidableEq

structure RetainedGpu where
  gpu : LsmProcessGpuSnapshot := {}
  info : GpuInfo := {}
  snapshotValid : Bool := false
  sampledAt : ℚ := 0
  deriving DecidableEq

/-- The defaults are a new sample after `memset`. -/
structure PreviousProcessSample where
  pid : Nat
  startTicks : Nat := 0
  cpuTicks : Nat := 0
  readBytes : Nat := 0
  writeBytes : Nat := 0
  ioAvailable : Bool := false
  sampledAt : ℚ := 0
  gpu : RetainedGpu := {}
  command : RetainedText 1024 := {}
  executable : RetainedText 512 := {}
  cgroup : RetainedText 512 := {}
  cgroupV2 : Bool := false
  generation : Nat := 0
  deriving DecidableEq

/-- A retained text of the same process, not in the future and not yet due. -/
def RetainedText.serve {n : Nat} (r : RetainedText n) (sameProcess : Bool) (now : ℚ) : Option (Chars n) :=
  match r.value with
  | none => none
  | some string =>
    if sameProcess ∧ 0 ≤ now - r.sampledAt ∧ now - r.sampledAt < processMetadataRefreshSeconds
    then some string.text else none

/-- `strdup` the collected text into the sample; a failed `strdup` leaves the
sample as it was. The displaced string is not freed here. -/
def RetainedText.store {n : Nat} (r : RetainedText n) (duplicated : Bool) (now : ℚ) (text : Chars n)
    (heap : Heap) : RetainedText n × Heap :=
  if duplicated then (⟨some ⟨heap.next, text⟩, now⟩, {heap with next := heap.next + 1}) else (r, heap)

/-- Serve the retained text, or collect it and store what was collected. -/
def RetainedText.refresh {n : Nat} (r : RetainedText n) (sameProcess : Bool) (now : ℚ) (collected : Chars n)
    (duplicated : Bool) (heap : Heap) : Chars n × RetainedText n × Heap :=
  match r.serve sameProcess now with
  | some text => (text, r, heap)
  | none => (collected, r.store duplicated now collected heap)

def sampleMetadataFree (heap : Heap) (s : PreviousProcessSample) : Heap :=
  ((heap.free s.command.value).free s.executable.value).free s.cgroup.value

/-! ### The vector -/

/-- The PID at an index of the vector. -/
def pidAt (samples : List PreviousProcessSample) (i : Nat) : Nat := (samples[i]?.map (·.pid)).getD 0

/-- The vector and the index of the sample for a PID. -/
structure Found where
  samples : List PreviousProcessSample
  index : Nat
  sample : PreviousProcessSample

/-- Search the sorted prefix; an unknown PID gets a zeroed sample at the end.
`none`: the vector could not grow. -/
def findOrCreateSample (samples : List PreviousProcessSample) (searchableCount pid : Nat) (reserved : Bool) :
    Option Found :=
  let low := lowerBound (pidAt samples) pid searchableCount 0 searchableCount
  match samples[low]? with
  | some sample =>
    if low < searchableCount ∧ sample.pid = pid then some ⟨samples, low, sample⟩
    else if reserved then some ⟨samples ++ [{pid}], samples.length, {pid}⟩ else none
  | none => if reserved then some ⟨samples ++ [{pid}], samples.length, {pid}⟩ else none

abbrev PreviousProcessMutation := Nat × PreviousProcessSample

/-- One turn of the rollback loop: release what the scan stored, put the sample back. -/
def rollbackMutation (samples : List PreviousProcessSample) (heap : Heap) (mutation : PreviousProcessMutation) :
    List PreviousProcessSample × Heap :=
  match samples[mutation.1]? with
  | none => (samples, heap)
  | some current =>
    (samples.set mutation.1 mutation.2,
      ((heap.freeUnless current.command.value mutation.2.command.value).freeUnless
        current.executable.value mutation.2.executable.value).freeUnless
        current.cgroup.value mutation.2.cgroup.value)

/-- The newest mutation first. -/
def rollbackLoop (samples : List PreviousProcessSample) (heap : Heap) :
    List PreviousProcessMutation → List PreviousProcessSample × Heap
  | [] => (samples, heap)
  | mutation :: older =>
    let undone := rollbackMutation samples heap mutation
    rollbackLoop undone.1 undone.2 older

/-- `mutations` is in journal order, oldest first. -/
def rollbackSampleMutations (samples : List PreviousProcessSample) (heap : Heap)
    (mutations : List PreviousProcessMutation) (originalSampleCount : Nat) :
    List PreviousProcessSample × Heap :=
  let undone := rollbackLoop samples heap mutations.reverse
  (undone.1.take originalSampleCount,
    (undone.1.drop originalSampleCount).foldl sampleMetadataFree undone.2)

/-- Release the strings a committed scan displaced. -/
def commitSampleMutations (samples : List PreviousProcessSample) (heap : Heap) :
    List PreviousProcessMutation → Heap
  | [] => heap
  | mutation :: rest =>
    let released := match samples[mutation.1]? with
      | none => heap
      | some current =>
        ((heap.freeUnless mutation.2.command.value current.command.value).freeUnless
          mutation.2.executable.value current.executable.value).freeUnless
          mutation.2.cgroup.value current.cgroup.value
    commitSampleMutations samples released rest

/-- Drop the samples this generation did not visit, releasing their strings. -/
def dropStaleSamples (samples : List PreviousProcessSample) (heap : Heap) (generation : Nat) :
    List PreviousProcessSample × Heap :=
  (samples.filter fun s => s.generation = generation,
    (samples.filter fun s => s.generation ≠ generation).foldl sampleMetadataFree heap)

/-- `qsort` by PID: the PIDs are distinct, so any sorting function gives this. -/
def sortSamples (samples : List PreviousProcessSample) : List PreviousProcessSample :=
  samples.insertionSort fun a b => a.pid ≤ b.pid

end SystemMonitor.Process
