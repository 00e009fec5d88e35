import SystemMonitor.Lib.Linked
import SystemMonitor.Lib.Machine
import SystemMonitor.Process.Model

/-! The process recorder: samples queued by the application, written by a worker.

The queue is linked by hand, with a counter beside it. The worker unlinks a node
under the mutex and writes its row outside; a write that fails discards what is
still queued. A full queue is itself a failure, after which what was accepted is
still written out. `recorder_queue` says what reaches the file. -/
namespace SystemMonitor.Recorder
open Lib Process

structure RecordNode where
  timestamp : Int
  pid : Nat
  cpuPercent : ℚ
  memoryPercent : ℚ
  rssBytes : Nat
  readBytes : Nat
  writeBytes : Nat
  threads : Nat
  deriving DecidableEq

def lsmProcessRecorderMaxQueued : Nat := 4096

def eio : Nat := 5
def enobufs : Nat := 105

structure LsmProcessRecorder where
  heap : Linked.Heap RecordNode := fun _ => none
  head : Option Nat := none
  tail : Option Nat := none
  queued : Nat := 0
  failure : Nat := 0
  stopRequested : Bool := false

/-- Where `recorder_thread_main` stands: `writing` a node it has unlinked,
`failed` to write one, `closing` the file after the loop. -/
inductive Worker where
  | looping
  | writing (i : Nat) (node : RecordNode)
  | failed (failure : Nat)
  | closing
  | exited
  deriving DecidableEq

structure State where
  recorder : LsmProcessRecorder := {}
  worker : Worker := .looping
  /-- The rows after the header. -/
  file : List RecordNode := []

def recordNode (timestamp : Int) (process : LsmProcessInfo) : RecordNode where
  timestamp
  pid := process.pid
  cpuPercent := process.cpuPercent
  memoryPercent := process.memoryPercent
  rssBytes := process.rssBytes
  readBytes := process.readBytes
  writeBytes := process.writeBytes
  threads := process.threads

/-! ### The application -/

/-- With a node that `calloc` has placed at `i`, and with what the call returns. -/
def lsmProcessRecorderAppend (recorder : LsmProcessRecorder) (i : Nat) (node : RecordNode) :
    LsmProcessRecorder × Bool :=
  if recorder.stopRequested || recorder.failure != 0 then (recorder, false)
  else if lsmProcessRecorderMaxQueued ≤ recorder.queued then
    ({recorder with failure := enobufs, stopRequested := true}, false)
  else
    ({recorder with
      heap := Linked.link recorder.heap recorder.tail i node
      head := Linked.linkHead recorder.head recorder.tail i
      tail := some i
      queued := recorder.queued + 1}, true)

/-- The critical section of `lsm_process_recorder_stop`. -/
def lsmProcessRecorderStop (recorder : LsmProcessRecorder) : LsmProcessRecorder := {recorder with stopRequested := true}

/-! ### The worker -/

/-- The head of the loop; `none` while it waits. -/
def recorderThreadNext (s : State) : Option State :=
  match s.recorder.head with
  | none => if s.recorder.stopRequested then some {s with worker := .closing} else none
  | some i =>
    match s.recorder.heap i with
    | none => none
    | some node =>
      some {s with
        worker := .writing i node.value
        recorder := {s.recorder with
          head := node.next
          tail := if node.next = none then none else s.recorder.tail
          queued := s.recorder.queued - 1}}

/-- The end of `write_record`. A row whose write failed may have reached the file
all the same, now or when the file is closed. -/
def recorderThreadWrote (s : State) (i : Nat) (node : RecordNode) (outcome : Option Nat) (reached : Bool) : State :=
  match outcome with
  | none =>
    {s with
      worker := .looping
      recorder := {s.recorder with heap := Linked.free s.recorder.heap i}
      file := s.file ++ [node]}
  | some errno =>
    {s with
      worker := .failed (if errno = 0 then eio else errno)
      recorder := {s.recorder with heap := Linked.free s.recorder.heap i}
      file := if reached then s.file ++ [node] else s.file}

/-- `free_nodes`, from the head on. -/
def freeNodes (heap : Linked.Heap RecordNode) : Nat → Option Nat → Linked.Heap RecordNode
  | 0, _ => heap
  | _, none => heap
  | fuel + 1, some i =>
    match heap i with
    | none => heap
    | some node => freeNodes (Linked.free heap i) fuel node.next

def recorderThreadFailed (s : State) (failure : Nat) : State :=
  {s with
    worker := .closing
    recorder := {s.recorder with
      failure := if s.recorder.failure = 0 then failure else s.recorder.failure
      stopRequested := true
      heap := freeNodes s.recorder.heap s.recorder.queued s.recorder.head
      head := none
      tail := none
      queued := 0}}

/-- `fclose`, with its errno when it fails. -/
def recorderThreadClosed (s : State) (outcome : Option Nat) : State :=
  match outcome with
  | none => {s with worker := .exited}
  | some errno =>
    {s with
      worker := .exited
      recorder := {s.recorder with
        failure := if s.recorder.failure = 0 then (if errno = 0 then eio else errno) else s.recorder.failure}}

/-! ### The machine -/

inductive Action where
  | append (i : Nat) (timestamp : Int) (process : LsmProcessInfo)
  | stop
  | next
  | wrote (outcome : Option Nat) (reached : Bool)
  | discard
  | closed (outcome : Option Nat)

def step (s : State) : Action → Option State
  | .append i timestamp process =>
    -- Allocation gives memory that is not in use.
    if s.recorder.heap i = none then
      some {s with recorder := (lsmProcessRecorderAppend s.recorder i (recordNode timestamp process)).1}
    else none
  | .stop => some {s with recorder := lsmProcessRecorderStop s.recorder}
  | .next => if s.worker = .looping then recorderThreadNext s else none
  | .wrote outcome reached =>
    match s.worker with
    | .writing i node => some (recorderThreadWrote s i node outcome reached)
    | _ => none
  | .discard =>
    match s.worker with
    | .failed failure => some (recorderThreadFailed s failure)
    | _ => none
  | .closed outcome => if s.worker = .closing then some (recorderThreadClosed s outcome) else none

def machine : Machine State Action := ⟨step⟩

inductive Event where
  | accepted (node : RecordNode)
  | failed
  deriving DecidableEq

/-- The appends that return true, and the writes that fail. -/
def events (s : State) : Action → List Event
  | .append i timestamp process =>
    if (lsmProcessRecorderAppend s.recorder i (recordNode timestamp process)).2
      then [.accepted (recordNode timestamp process)] else []
  | .wrote (some _) _ => [.failed]
  | _ => []

def acceptedNodes (log : List Event) : List RecordNode :=
  log.filterMap fun
    | .accepted node => some node
    | .failed => none

theorem acceptedNodes_append (a b : List Event) : acceptedNodes (a ++ b) = acceptedNodes a ++ acceptedNodes b :=
  List.filterMap_append

/-! ### What holds between steps -/

/-- Where the accepted rows are. Until a write fails they are in the file, in the
worker's hand and in the queue, in this order; afterwards the file has a first
part of them. -/
def Progress (log : List Event) (s : State) (cells : List (Nat × RecordNode)) : Worker → Prop
  | .looping => acceptedNodes log = s.file ++ cells.map Prod.snd ∧ .failed ∉ log
  | .writing i node =>
    acceptedNodes log = s.file ++ node :: cells.map Prod.snd ∧ .failed ∉ log ∧
      s.recorder.heap i ≠ none ∧ i ∉ cells.map Prod.fst
  | .failed failure => s.file <+: acceptedNodes log ∧ .failed ∈ log ∧ failure ≠ 0
  | .closing | .exited =>
    s.recorder.stopRequested = true ∧ s.file <+: acceptedNodes log ∧ (.failed ∉ log → s.file = acceptedNodes log) ∧
      (.failed ∈ log → s.recorder.failure ≠ 0)

structure Recording (log : List Event) (s : State) (cells : List (Nat × RecordNode)) : Prop where
  queue : Linked.Queue s.recorder.heap s.recorder.head s.recorder.tail cells
  counted : s.recorder.queued = cells.length
  bounded : s.recorder.queued ≤ lsmProcessRecorderMaxQueued
  progress : Progress log s cells s.worker

theorem Recording.create : Recording [] {} [] :=
  ⟨.empty _, rfl, Nat.zero_le _, rfl, List.not_mem_nil⟩

/-- What an append can do. -/
theorem append_cases (recorder : LsmProcessRecorder) (i : Nat) (node : RecordNode) :
    (recorder.stopRequested = true ∨ recorder.failure ≠ 0) ∧
      lsmProcessRecorderAppend recorder i node = (recorder, false) ∨
    recorder.stopRequested = false ∧ recorder.failure = 0 ∧ lsmProcessRecorderMaxQueued ≤ recorder.queued ∧
      lsmProcessRecorderAppend recorder i node = ({recorder with failure := enobufs, stopRequested := true}, false) ∨
    recorder.stopRequested = false ∧ recorder.failure = 0 ∧ recorder.queued < lsmProcessRecorderMaxQueued ∧
      lsmProcessRecorderAppend recorder i node =
        ({recorder with
          heap := Linked.link recorder.heap recorder.tail i node
          head := Linked.linkHead recorder.head recorder.tail i
          tail := some i
          queued := recorder.queued + 1}, true) := by
  unfold lsmProcessRecorderAppend
  by_cases hclosed : (recorder.stopRequested || recorder.failure != 0) = true
  · rw [if_pos hclosed]
    exact Or.inl ⟨by simpa using hclosed, rfl⟩
  · rw [if_neg hclosed]
    simp only [Bool.or_eq_true, bne_iff_ne, ne_eq, not_or, Bool.not_eq_true, not_not] at hclosed
    by_cases hfull : lsmProcessRecorderMaxQueued ≤ recorder.queued
    · rw [if_pos hfull]
      exact Or.inr (Or.inl ⟨hclosed.1, hclosed.2, hfull, rfl⟩)
    · rw [if_neg hfull]
      exact Or.inr (Or.inr ⟨hclosed.1, hclosed.2, Nat.lt_of_not_le hfull, rfl⟩)

theorem Recording.append {log : List Event} {s : State} {cells : List (Nat × RecordNode)} (h : Recording log s cells)
    {i : Nat} (hfresh : s.recorder.heap i = none) (timestamp : Int) (process : LsmProcessInfo) :
    ∃ cells, Recording (log ++ events s (.append i timestamp process))
      {s with recorder := (lsmProcessRecorderAppend s.recorder i (recordNode timestamp process)).1} cells := by
  rcases append_cases s.recorder i (recordNode timestamp process) with ⟨-, hrejected⟩ |
    ⟨hgoing, hhealthy, -, hfull⟩ | ⟨hgoing, hhealthy, hroom, haccepted⟩
  · refine ⟨cells, ?_⟩
    simp only [events, hrejected, Bool.false_eq_true, if_false, List.append_nil]
    exact h
  · -- Nothing is closing yet, so the failure takes nothing away.
    refine ⟨cells, ?_⟩
    simp only [events, hfull, Bool.false_eq_true, if_false, List.append_nil]
    refine ⟨h.queue, h.counted, h.bounded, ?_⟩
    have hprogress := h.progress
    show Progress log _ cells s.worker
    cases hworker : s.worker with
    | looping =>
      rw [hworker] at hprogress
      exact hprogress
    | writing j node =>
      rw [hworker] at hprogress
      exact hprogress
    | failed failure =>
      rw [hworker] at hprogress
      exact hprogress
    | closing =>
      rw [hworker] at hprogress
      rw [hprogress.1] at hgoing
      cases hgoing
    | exited =>
      rw [hworker] at hprogress
      rw [hprogress.1] at hgoing
      cases hgoing
  · refine ⟨cells ++ [(i, recordNode timestamp process)], ?_⟩
    simp only [events, haccepted, if_true]
    have hpush := h.queue.push (recordNode timestamp process) hfresh
    have hlog : acceptedNodes (log ++ [.accepted (recordNode timestamp process)]) =
        acceptedNodes log ++ [recordNode timestamp process] := acceptedNodes_append log _
    have hfailed : .failed ∈ log ++ [Event.accepted (recordNode timestamp process)] ↔ .failed ∈ log := by simp
    refine ⟨hpush, ?_, hroom, ?_⟩
    · simp [h.counted]
    · have hprogress := h.progress
      show Progress _ _ _ s.worker
      cases hworker : s.worker with
      | looping =>
        rw [hworker] at hprogress
        obtain ⟨hrows, hnone⟩ := hprogress
        refine ⟨?_, fun hmem => hnone (hfailed.mp hmem)⟩
        rw [hlog, hrows]
        simp
      | writing j node =>
        rw [hworker] at hprogress
        obtain ⟨hrows, hnone, hhand, hother⟩ := hprogress
        refine ⟨?_, fun hmem => hnone (hfailed.mp hmem),
          fun hgone => hhand ((Linked.link_eq_none ..).mp hgone).2, ?_⟩
        · rw [hlog, hrows]
          simp
        · intro hmem
          rw [List.map_append, List.mem_append] at hmem
          rcases hmem with hmem | hmem
          · exact hother hmem
          · rw [List.mem_singleton.mp hmem] at hhand
            exact hhand hfresh
      | failed failure =>
        rw [hworker] at hprogress
        obtain ⟨hrows, hsome, hcode⟩ := hprogress
        refine ⟨?_, hfailed.mpr hsome, hcode⟩
        rw [hlog]
        exact hrows.trans (List.prefix_append ..)
      | closing =>
        rw [hworker] at hprogress
        rw [hprogress.1] at hgoing
        cases hgoing
      | exited =>
        rw [hworker] at hprogress
        rw [hprogress.1] at hgoing
        cases hgoing

theorem Recording.stop {log : List Event} {s : State} {cells : List (Nat × RecordNode)} (h : Recording log s cells) :
    Recording log {s with recorder := lsmProcessRecorderStop s.recorder} cells := by
  refine ⟨h.queue, h.counted, h.bounded, ?_⟩
  have hprogress := h.progress
  show Progress log _ cells s.worker
  cases hworker : s.worker with
  | looping =>
    rw [hworker] at hprogress
    exact hprogress
  | writing j node =>
    rw [hworker] at hprogress
    exact hprogress
  | failed failure =>
    rw [hworker] at hprogress
    exact hprogress
  | closing =>
    rw [hworker] at hprogress
    exact ⟨rfl, hprogress.2⟩
  | exited =>
    rw [hworker] at hprogress
    exact ⟨rfl, hprogress.2⟩

theorem Recording.next {log : List Event} {s t : State} {cells : List (Nat × RecordNode)} (h : Recording log s cells)
    (hworker : s.worker = .looping) (hnext : recorderThreadNext s = some t) : ∃ cells, Recording log t cells := by
  have hprogress := h.progress
  rw [hworker] at hprogress
  obtain ⟨hrows, hnone⟩ := hprogress
  have hqueue := h.queue
  unfold recorderThreadNext at hnext
  cases hhead : s.recorder.head with
  | none =>
    rw [hhead] at hnext hqueue
    have hnil := hqueue.chain.eq_nil
    simp only at hnext
    split at hnext
    · rename_i hstop
      cases hnext
      rw [hnil, List.map_nil, List.append_nil] at hrows
      refine ⟨cells, hhead ▸ hqueue, h.counted, h.bounded, hstop, ?_, fun _ => hrows.symm,
        fun hfailed => absurd hfailed hnone⟩
      exact hrows ▸ List.prefix_refl _
    · cases hnext
  | some i =>
    rw [hhead] at hnext hqueue
    obtain ⟨node, next, rest, hnode, hcells, hother, hrest⟩ := hqueue.pop
    simp only [hnode, Option.some.injEq] at hnext
    subst hnext
    have hcounted := h.counted
    have hbounded := h.bounded
    rw [hcells, List.length_cons] at hcounted
    refine ⟨rest, hrest, ?_, ?_, ?_, hnone, ?_, hother⟩
    · show s.recorder.queued - 1 = rest.length
      omega
    · show s.recorder.queued - 1 ≤ _
      omega
    · rw [hrows, hcells, List.map_cons]
    · rw [hnode]
      simp

theorem Recording.wrote {log : List Event} {s : State} {cells : List (Nat × RecordNode)} (h : Recording log s cells)
    {i : Nat} {node : RecordNode} (hworker : s.worker = .writing i node) (outcome : Option Nat) (reached : Bool) :
    Recording (log ++ events s (.wrote outcome reached)) (recorderThreadWrote s i node outcome reached) cells := by
  have hprogress := h.progress
  rw [hworker] at hprogress
  obtain ⟨hrows, hnone, hhand, hother⟩ := hprogress
  cases outcome with
  | none =>
    simp only [events, List.append_nil]
    refine ⟨h.queue.free hother, h.counted, h.bounded, ?_, hnone⟩
    rw [hrows]
    simp [recorderThreadWrote]
  | some errno =>
    have hlog : acceptedNodes (log ++ [.failed]) = acceptedNodes log := by
      rw [acceptedNodes_append]
      exact List.append_nil _
    refine ⟨h.queue.free hother, h.counted, h.bounded, ?_, by simp [events], ?_⟩
    · simp only [events, recorderThreadWrote, hlog, hrows]
      split
      · rw [show node :: cells.map Prod.snd = [node] ++ cells.map Prod.snd from rfl, ← List.append_assoc]
        exact List.prefix_append ..
      · exact List.prefix_append ..
    · split
      · decide
      · assumption

theorem Recording.discard {log : List Event} {s : State} {cells : List (Nat × RecordNode)} (h : Recording log s cells)
    {failure : Nat} (hworker : s.worker = .failed failure) : Recording log (recorderThreadFailed s failure) [] := by
  have hprogress := h.progress
  rw [hworker] at hprogress
  obtain ⟨hrows, hsome, hcode⟩ := hprogress
  refine ⟨.empty _, rfl, Nat.zero_le _, rfl, hrows, fun hnone => absurd hsome hnone, ?_⟩
  intro _
  show (if s.recorder.failure = 0 then failure else s.recorder.failure) ≠ 0
  split
  · exact hcode
  · assumption

theorem Recording.closed {log : List Event} {s : State} {cells : List (Nat × RecordNode)} (h : Recording log s cells)
    (hworker : s.worker = .closing) (outcome : Option Nat) : Recording log (recorderThreadClosed s outcome) cells := by
  have hprogress := h.progress
  rw [hworker] at hprogress
  obtain ⟨hstop, hrows, hall, hcode⟩ := hprogress
  cases outcome with
  | none => exact ⟨h.queue, h.counted, h.bounded, hstop, hrows, hall, hcode⟩
  | some errno =>
    refine ⟨h.queue, h.counted, h.bounded, hstop, hrows, hall, ?_⟩
    intro hfailed
    have hset := hcode hfailed
    show (if s.recorder.failure = 0 then _ else s.recorder.failure) ≠ 0
    rw [if_neg hset]
    exact hset

theorem Recording.step {log : List Event} {s t : State} {a : Action} {cells : List (Nat × RecordNode)}
    (h : Recording log s cells) (hstep : machine.step s a = some t) :
    ∃ cells, Recording (log ++ events s a) t cells := by
  simp only [machine, Recorder.step] at hstep
  cases a with
  | append i timestamp process =>
    simp only at hstep
    split at hstep
    · rename_i hfresh
      cases hstep
      exact h.append hfresh timestamp process
    · cases hstep
  | stop =>
    cases hstep
    rw [show events s .stop = [] from rfl, List.append_nil]
    exact ⟨cells, h.stop⟩
  | next =>
    simp only at hstep
    split at hstep
    · rename_i hworker
      rw [show events s .next = [] from rfl, List.append_nil]
      exact h.next hworker hstep
    · cases hstep
  | wrote outcome reached =>
    simp only at hstep
    split at hstep
    · rename_i i node hworker
      cases hstep
      exact ⟨cells, h.wrote hworker outcome reached⟩
    · cases hstep
  | discard =>
    simp only at hstep
    split at hstep
    · rename_i failure hworker
      cases hstep
      rw [show events s .discard = [] from rfl, List.append_nil]
      exact ⟨[], h.discard hworker⟩
    · cases hstep
  | closed outcome =>
    simp only at hstep
    split at hstep
    · rename_i hworker
      cases hstep
      rw [show events s (.closed outcome) = [] from rfl, List.append_nil]
      exact ⟨cells, h.closed hworker outcome⟩
    · cases hstep

/-! ### Closed for good -/

/-- No append is accepted any more. -/
def Refusing (s : State) : Prop := s.recorder.stopRequested = true ∨ s.recorder.failure ≠ 0

theorem append_refused {s : State} (h : Refusing s) (i : Nat) (node : RecordNode) :
    lsmProcessRecorderAppend s.recorder i node = (s.recorder, false) := by
  rcases append_cases s.recorder i node with ⟨-, hrejected⟩ | ⟨hgoing, hhealthy, -⟩ | ⟨hgoing, hhealthy, -⟩
  · exact hrejected
  · rcases h with hstop | hfailure
    · rw [hstop] at hgoing
      cases hgoing
    · exact absurd hhealthy hfailure
  · rcases h with hstop | hfailure
    · rw [hstop] at hgoing
      cases hgoing
    · exact absurd hhealthy hfailure

/-- What is set is set for good. -/
theorem Refusing.step {s t : State} {a : Action} (h : Refusing s) (hstep : machine.step s a = some t) : Refusing t := by
  simp only [machine, Recorder.step] at hstep
  cases a with
  | append i timestamp process =>
    simp only at hstep
    split at hstep
    · cases hstep
      rw [append_refused h]
      exact h
    · cases hstep
  | stop =>
    cases hstep
    exact Or.inl rfl
  | next =>
    simp only at hstep
    split at hstep
    · unfold recorderThreadNext at hstep
      split at hstep
      · split at hstep
        · cases hstep
          exact h
        · cases hstep
      · split at hstep
        · cases hstep
        · cases hstep
          exact h
    · cases hstep
  | wrote outcome reached =>
    simp only at hstep
    split at hstep
    · cases hstep
      cases outcome with
      | none => exact h
      | some errno => exact h
    · cases hstep
  | discard =>
    simp only at hstep
    split at hstep
    · cases hstep
      exact Or.inl rfl
    · cases hstep
  | closed outcome =>
    simp only at hstep
    split at hstep
    · cases hstep
      cases outcome with
      | none => exact h
      | some errno =>
        rcases h with hstop | hfailure
        · exact Or.inl hstop
        · refine Or.inr ?_
          show (if s.recorder.failure = 0 then _ else s.recorder.failure) ≠ 0
          rw [if_neg hfailure]
          exact hfailure
    · cases hstep

/-! ### Whole runs -/

theorem Recording.run {actions : List Action} {s : State} (hrun : machine.run {} actions = some s) :
    ∃ cells, Recording (machine.trace events {} actions) s cells := by
  have hstart : ∃ cells, Recording [] {} cells := ⟨[], .create⟩
  refine machine.run_trace_invariant events (fun _ _ => True) (fun log s => ∃ cells, Recording log s cells) ?_ hstart
    (machine.admissible_true _ actions) hrun
  intro log s a t h _ hstep
  obtain ⟨cells, hrecording⟩ := h
  exact hrecording.step hstep

/-- **What the recorder writes.** In every schedule: the rows of the file are a
first part, in order, of the samples whose append returned true; all of them,
when the worker has exited without a failure, or with the failure of a full
queue and no failed write; the queue is a chain of at most 4096 nodes, as many
as the counter says, with the tail at its last node; and once it is stopped or
has failed the recorder refuses every append and is not changed by it. -/
theorem recorder_queue {actions : List Action} {s : State} (hrun : machine.run {} actions = some s) :
    s.file <+: acceptedNodes (machine.trace events {} actions) ∧
    (s.worker = .exited → s.recorder.failure = 0 ∨ s.recorder.failure = enobufs ∧
      .failed ∉ machine.trace events {} actions → s.file = acceptedNodes (machine.trace events {} actions)) ∧
    (∃ cells, Linked.Chain s.recorder.heap s.recorder.head cells ∧ s.recorder.queued = cells.length ∧
      s.recorder.queued ≤ lsmProcessRecorderMaxQueued ∧ s.recorder.tail = cells.getLast?.map Prod.fst ∧
      (s.recorder.head = none ↔ s.recorder.tail = none)) ∧
    (s.recorder.stopRequested = true ∨ s.recorder.failure ≠ 0 → ∀ after t, machine.run s after = some t →
      ∀ i node, lsmProcessRecorderAppend t.recorder i node = (t.recorder, false)) := by
  obtain ⟨cells, h⟩ := Recording.run hrun
  have hprogress := h.progress
  refine ⟨?_, ?_, ?_, ?_⟩
  · cases hworker : s.worker with
    | looping =>
      rw [hworker] at hprogress
      rw [hprogress.1]
      exact List.prefix_append ..
    | writing i node =>
      rw [hworker] at hprogress
      rw [hprogress.1]
      exact List.prefix_append ..
    | failed failure =>
      rw [hworker] at hprogress
      exact hprogress.1
    | closing =>
      rw [hworker] at hprogress
      exact hprogress.2.1
    | exited =>
      rw [hworker] at hprogress
      exact hprogress.2.1
  · intro hexited hcode
    rw [hexited] at hprogress
    obtain ⟨-, -, hall, hfailed⟩ := hprogress
    apply hall
    rcases hcode with hhealthy | ⟨-, hnone⟩
    · intro hsome
      exact hfailed hsome hhealthy
    · exact hnone
  · exact ⟨cells, h.queue.chain, h.counted, h.bounded, h.queue.tail,
      h.queue.head_eq_none.trans h.queue.tail_eq_none.symm⟩
  · intro hclosed after t hafter i node
    exact append_refused (machine.run_preserves Refusing (fun _ _ _ h hstep => h.step hstep) hclosed hafter) i node

/-- A process to be recorded. -/
def someProcess : LsmProcessInfo := {pid := 7}

theorem recorder_queue_drained :
    ∃ s, machine.run {} [.append 0 1 someProcess, .next, .append 1 2 someProcess, .wrote none true, .stop, .next,
        .wrote none true, .next, .closed none] = some s ∧
      s.file = [recordNode 1 someProcess, recordNode 2 someProcess] ∧
      s.file = acceptedNodes (machine.trace events {} [.append 0 1 someProcess, .next, .append 1 2 someProcess,
        .wrote none true, .stop, .next, .wrote none true, .next, .closed none]) := by
  obtain ⟨s, hrun, hexited, hhealthy, hfile⟩ := machine.run_decided (p := fun s => s.worker = .exited ∧
    s.recorder.failure = 0 ∧ s.file = [recordNode 1 someProcess, recordNode 2 someProcess])
    (show (machine.run {} [.append 0 1 someProcess, .next, .append 1 2 someProcess, .wrote none true, .stop, .next,
      .wrote none true, .next, .closed none]).map _ = some true by decide)
  exact ⟨s, hrun, hfile, (recorder_queue hrun).2.1 hexited (Or.inl hhealthy)⟩

/-! ### A full queue and then a failed write -/

/-- Samples that arrive faster than the worker starts. -/
def burst (n : Nat) : List Action := (List.range n).map fun i => .append i 1 someProcess

theorem burst_succ (n : Nat) : burst (n + 1) = burst n ++ [.append n 1 someProcess] := by
  simp [burst, List.range_succ]

/-- The recorder after so many samples, the worker not yet awake. -/
structure Burst (n : Nat) (s : State) : Prop where
  run : machine.run {} (burst n) = some s
  looping : s.worker = .looping
  file : s.file = []
  queued : s.recorder.queued = n
  healthy : s.recorder.failure = 0
  going : s.recorder.stopRequested = false
  fresh : ∀ i, n ≤ i → s.recorder.heap i = none

theorem Burst.succ {n : Nat} (hn : n < lsmProcessRecorderMaxQueued) {s : State} (h : Burst n s) :
    ∃ t, Burst (n + 1) t := by
  have hstep : machine.step s (.append n 1 someProcess) = some
      {s with recorder := (lsmProcessRecorderAppend s.recorder n (recordNode 1 someProcess)).1} :=
    if_pos (h.fresh n (Nat.le_refl n))
  rcases append_cases s.recorder n (recordNode 1 someProcess) with ⟨hclosed, -⟩ | ⟨-, -, hfull, -⟩ | ⟨-, -, -, haccepted⟩
  · rw [h.going, h.healthy] at hclosed
    simp at hclosed
  · rw [h.queued] at hfull
    omega
  · refine ⟨{s with recorder := (lsmProcessRecorderAppend s.recorder n (recordNode 1 someProcess)).1}, ?_, h.looping,
      h.file, ?_, ?_, ?_, ?_⟩
    · rw [burst_succ, machine.run_append, h.run, Option.bind_some, Machine.run, hstep]
      rfl
    · rw [haccepted]
      exact congrArg (· + 1) h.queued
    · rw [haccepted]
      exact h.healthy
    · rw [haccepted]
      exact h.going
    · intro i hi
      rw [haccepted]
      exact (Linked.link_eq_none ..).mpr ⟨by omega, h.fresh i (by omega)⟩

theorem burst_run (n : Nat) (hn : n ≤ lsmProcessRecorderMaxQueued) : ∃ s, Burst n s := by
  induction n with
  | zero => exact ⟨{}, rfl, rfl, rfl, rfl, rfl, rfl, fun _ _ => rfl⟩
  | succ n ih =>
    obtain ⟨s, hs⟩ := ih (Nat.le_of_succ_le hn)
    exact hs.succ hn

/-- The queue overflows, then the first write fails. -/
def overflowThenFailure : List Action :=
  [.append lsmProcessRecorderMaxQueued 1 someProcess, .next, .wrote (some 28) false, .discard, .closed none]

/-- The worker exits with the failure of the full queue, and of 4096 accepted
samples none is in the file. -/
theorem overflow_unwritten :
    ∃ s, machine.run {} (burst lsmProcessRecorderMaxQueued ++ overflowThenFailure) = some s ∧ s.worker = .exited ∧
      s.recorder.failure = enobufs ∧ s.file = [] ∧
      (acceptedNodes (machine.trace events {} (burst lsmProcessRecorderMaxQueued ++ overflowThenFailure))).length =
        lsmProcessRecorderMaxQueued := by
  obtain ⟨s, hs⟩ := burst_run lsmProcessRecorderMaxQueued (Nat.le_refl _)
  obtain ⟨cells, h⟩ := Recording.run hs.run
  have hprogress := h.progress
  rw [hs.looping] at hprogress
  have hcounted := h.counted
  rw [hs.queued] at hcounted
  -- The full queue has a first node.
  obtain ⟨i, hhead⟩ : ∃ i, s.recorder.head = some i := by
    cases hhead : s.recorder.head with
    | none =>
      rw [h.queue.head_eq_none.mp hhead] at hcounted
      cases hcounted
    | some i => exact ⟨i, rfl⟩
  have hqueue := h.queue
  rw [hhead] at hqueue
  obtain ⟨node, next, rest, hnode, -⟩ := hqueue.pop
  have hrefused : lsmProcessRecorderAppend s.recorder lsmProcessRecorderMaxQueued (recordNode 1 someProcess) =
      ({s.recorder with failure := enobufs, stopRequested := true}, false) := by
    rcases append_cases s.recorder lsmProcessRecorderMaxQueued (recordNode 1 someProcess) with
      ⟨hclosed, -⟩ | ⟨-, -, -, hfull⟩ | ⟨-, -, hroom, -⟩
    · rw [hs.going, hs.healthy] at hclosed
      simp at hclosed
    · exact hfull
    · rw [hs.queued] at hroom
      omega
  have hfresh := hs.fresh _ (Nat.le_refl _)
  obtain ⟨t, hrun, hexited, hfailure, hfile, hsilent⟩ : ∃ t, machine.run s overflowThenFailure = some t ∧
      t.worker = .exited ∧ t.recorder.failure = enobufs ∧ t.file = [] ∧
      acceptedNodes (machine.trace events s overflowThenFailure) = [] := by
    simp [overflowThenFailure, Machine.run, Machine.trace, machine, step, hfresh, hrefused, recorderThreadNext,
      hs.looping, hhead, hnode, recorderThreadWrote, recorderThreadFailed, recorderThreadClosed, events, hs.file,
      acceptedNodes, enobufs]
  refine ⟨t, ?_, hexited, hfailure, hfile, ?_⟩
  · rw [machine.run_append, hs.run]
    exact hrun
  · rw [machine.trace_append events hs.run, acceptedNodes_append, hsilent, List.append_nil, hprogress.1, hs.file,
      List.nil_append, List.length_map]
    exact hcounted.symm

end SystemMonitor.Recorder
