import Mathlib.Data.List.Sort
import SystemMonitor.Lib.LowerBound
import SystemMonitor.Lib.Machine
import SystemMonitor.Process.Model

/-! Signalling a process, and a process with all its descendants.

A PID means whatever process has it at the moment, so every step of a call that
asks the kernel is one action, with exits and forks in between. A `pidfd` is the
process itself. `signals_intended` says who is reached. -/
namespace SystemMonitor.Process
open Lib

inductive LsmProcessControl where
  | terminate | suspend | resume | forceTerminate
  deriving DecidableEq

def signalFromControl : LsmProcessControl → Nat
  | .terminate => 15
  | .suspend => 19
  | .resume => 18
  | .forceTerminate => 9

def intMax : Nat := 2 ^ 31 - 1
def enoent : Nat := 2
def esrch : Nat := 3
def einval : Nat := 22
def enosys : Nat := 38

/-! ### The kernel -/

/-- A process, from its fork until its PID is free again. -/
structure Task where
  pid : Nat
  startTicks : Nat
  deriving DecidableEq

/-- All processes there have been, and which of them has each PID now. -/
structure Kernel where
  tasks : List Task
  current : Nat → Option Nat

inductive KernelAction where
  | exit (pid : Nat)
  | fork (pid startTicks : Nat)

def Kernel.step (kernel : Kernel) : KernelAction → Option Kernel
  | .exit pid => some {kernel with current := fun p => if p = pid then none else kernel.current p}
  | .fork pid startTicks =>
    if kernel.current pid = none then
      some
        { tasks := kernel.tasks ++ [⟨pid, startTicks⟩]
          current := fun p => if p = pid then some kernel.tasks.length else kernel.current p }
    else none

/-- The process has not been reaped. -/
def Kernel.alive (kernel : Kernel) (task : Nat) : Bool :=
  match kernel.tasks[task]? with
  | some t => kernel.current t.pid = some task
  | none => false

/-- `read_process_stat`, for its start time. A fault is an errno; a PID that no
process has gives `ENOENT`. -/
def Kernel.readProcessStat (kernel : Kernel) (pid : Nat) (fault : Option Nat) : Except Nat Nat :=
  match fault with
  | some errno => .error errno
  | none =>
    match (kernel.current pid).bind fun i => kernel.tasks[i]? with
    | some task => .ok task.startTicks
    | none => .error enoent

/-! ### One process -/

def processIdentityPid (kernel : Kernel) (processId instanceId : Nat) (fault : Option Nat) : Except Nat Unit :=
  if processId = 0 ∨ intMax < processId ∨ instanceId = 0 then .error einval
  else match kernel.readProcessStat processId fault with
    | .error errno => .error (if errno = 0 ∨ errno = enoent then esrch else errno)
    | .ok startTicks => if startTicks = instanceId then .ok () else .error esrch

/-- Where `lsm_process_control` stands: `opened` and `verified` hold a pidfd;
`unsupported` is the fallback of older kernels. -/
inductive ControlPhase where
  | entered
  | checked
  | opened (task : Nat)
  | verified (task : Nat)
  | unsupported
  | numeric
  | returned (errno : Nat)
  deriving DecidableEq

/-- A failed `pidfd` system call. -/
def pidfdFailed (errno : Nat) : ControlPhase := if errno = enosys then .unsupported else .returned errno

/-- One interaction with the kernel, which may fail with `fault`, and the
processes that are signalled by it. -/
def lsmProcessControl (kernel : Kernel) (processId instanceId : Nat) (action : LsmProcessControl)
    (fault : Option Nat) : ControlPhase → Option (ControlPhase × List Nat)
  | .entered =>
    if signalFromControl action = 0 then some (.returned einval, [])
    else match processIdentityPid kernel processId instanceId fault with
      | .error errno => some (.returned errno, [])
      | .ok () => if processId ≤ 1 then some (.returned einval, []) else some (.checked, [])
  | .checked =>
    match fault with
    | some errno => some (pidfdFailed errno, [])
    | none =>
      match kernel.current processId with
      | some task => some (.opened task, [])
      | none => some (.returned esrch, [])
  | .opened task =>
    match processIdentityPid kernel processId instanceId fault with
    | .error errno => some (.returned errno, [])
    | .ok () => some (.verified task, [])
  | .verified task =>
    match fault with
    | some errno => some (pidfdFailed errno, [])
    | none => if kernel.alive task then some (.returned 0, [task]) else some (.returned esrch, [])
  | .unsupported =>
    match processIdentityPid kernel processId instanceId fault with
    | .error errno => some (.returned errno, [])
    | .ok () => if processId ≤ 1 then some (.returned einval, []) else some (.numeric, [])
  | .numeric =>
    match fault with
    | some errno => some (.returned errno, [])
    | none =>
      match kernel.current processId with
      | some task => some (.returned 0, [task])
      | none => some (.returned esrch, [])
  | .returned _ => none

structure ControlState where
  kernel : Kernel
  phase : ControlPhase := .entered

inductive ControlAction where
  | kernel (a : KernelAction)
  | call (fault : Option Nat)

/-- One call among everything else that happens. -/
def control (processId instanceId : Nat) (action : LsmProcessControl) : Machine ControlState ControlAction where
  step s
    | .kernel a => (s.kernel.step a).map fun kernel => {s with kernel}
    | .call fault =>
      (lsmProcessControl s.kernel processId instanceId action fault s.phase).map fun r => {s with phase := r.1}

def controlSignals (processId instanceId : Nat) (action : LsmProcessControl) (s : ControlState) :
    ControlAction → List Nat
  | .kernel _ => []
  | .call fault =>
    match lsmProcessControl s.kernel processId instanceId action fault s.phase with
    | some r => r.2
    | none => []

/-! ### A process tree -/

structure PidParent where
  pid : Nat
  ppid : Nat
  instanceId : Nat
  depth : Nat := 0
  deriving DecidableEq

/-- The lower bound over the PID-sorted snapshot. -/
def findPidParent (items : List PidParent) (pid : Nat) : Option PidParent :=
  match items[lowerBound (fun i => (items.getD i ⟨0, 0, 0, 0⟩).pid) pid items.length 0 items.length]? with
  | some item => if item.pid = pid then some item else none
  | none => none

/-- The walk from a process towards the root, at most as long as the snapshot. -/
def processDepthLoop (items : List PidParent) (root : Nat) : Nat → Nat → Nat → Nat
  | 0, current, depth => if current = root then depth else 0
  | guard + 1, current, depth =>
    if current = root then depth
    else match findPidParent items current with
      | none => 0
      | some record => processDepthLoop items root guard record.ppid (depth + 1)

def processDepth (items : List PidParent) (pid root : Nat) : Nat := processDepthLoop items root items.length pid 0

/-- Deepest first; within a depth, by falling PID. -/
def depthDescending (a b : PidParent) : Prop := b.depth < a.depth ∨ a.depth = b.depth ∧ b.pid ≤ a.pid

instance : DecidableRel depthDescending := fun _ _ => inferInstanceAs (Decidable (_ ∨ _))

def descendantItems (items : List PidParent) (root : Nat) : List PidParent :=
  let sorted := items.insertionSort fun a b => a.pid ≤ b.pid
  ((sorted.map fun item => {item with depth := processDepth sorted item.pid root}).filter
    fun item => 0 < item.depth).insertionSort depthDescending

/-- Where `lsm_process_control_tree` stands. While it controls, the first target
is the one being called for; the root is the last. -/
inductive TreePhase where
  | entered
  | enumerating (items : List PidParent)
  | enumerated (items : List PidParent)
  | controlling (targets : List PidParent) (call : ControlPhase) (savedErrno : Nat)
  | returned (errno : Nat)

structure TreeState where
  kernel : Kernel
  phase : TreePhase := .entered

inductive TreeAction where
  | kernel (a : KernelAction)
  | enter (fault unopened : Option Nat)
  /-- A directory entry with this PID; `ppid` is what its stat record says. -/
  | entry (pid ppid : Nat) (fault : Option Nat)
  | enumerationFails (errno : Nat)
  | endOfDirectory
  | recheck (fault unallocated : Option Nat)
  | call (fault : Option Nat)
  | next

def controlTreeEnter (s : TreeState) (rootId rootInstanceId : Nat) (action : LsmProcessControl)
    (fault unopened : Option Nat) : TreePhase :=
  match processIdentityPid s.kernel rootId rootInstanceId fault with
  | .error errno => .returned errno
  | .ok () =>
    if rootId ≤ 1 ∨ signalFromControl action = 0 then .returned einval
    else match unopened with
      | some errno => .returned errno
      | none => .enumerating []

/-- `read_pid_parent`, for an entry that is looked at at all. -/
def readPidParent (kernel : Kernel) (pid ppid : Nat) (fault : Option Nat) : Option PidParent :=
  if pid ≤ 1 ∨ intMax < pid then none
  else match kernel.readProcessStat pid fault with
    | .error _ => none
    | .ok startTicks => some ⟨pid, if ppid ≤ intMax then ppid else 0, startTicks, 0⟩

def controlTreeRecheck (s : TreeState) (rootId rootInstanceId : Nat) (items : List PidParent)
    (fault unallocated : Option Nat) : TreePhase :=
  match processIdentityPid s.kernel rootId rootInstanceId fault with
  | .error errno => .returned errno
  | .ok () =>
    match unallocated with
    | some errno => .returned errno
    | none => .controlling (descendantItems items rootId ++ [⟨rootId, 0, rootInstanceId, 0⟩]) .entered 0

/-- The next target, after a call that returned this; a process that is gone is no error. -/
def controlTreeNext (targets : List PidParent) (errno savedErrno : Nat) : TreePhase :=
  let saved := if errno ≠ 0 ∧ errno ≠ esrch ∧ savedErrno = 0 then errno else savedErrno
  match targets.tail with
  | [] => .returned saved
  | rest => .controlling rest .entered saved

def controlTree (rootId rootInstanceId : Nat) (action : LsmProcessControl) : Machine TreeState TreeAction where
  step s
    | .kernel a => (s.kernel.step a).map fun kernel => {s with kernel}
    | .enter fault unopened =>
      match s.phase with
      | .entered => some {s with phase := controlTreeEnter s rootId rootInstanceId action fault unopened}
      | _ => none
    | .entry pid ppid fault =>
      match s.phase with
      | .enumerating items =>
        some {s with phase := .enumerating (items ++ (readPidParent s.kernel pid ppid fault).toList)}
      | _ => none
    | .enumerationFails errno =>
      match s.phase with
      | .enumerating _ => some {s with phase := .returned errno}
      | _ => none
    | .endOfDirectory =>
      match s.phase with
      | .enumerating items => some {s with phase := .enumerated items}
      | _ => none
    | .recheck fault unallocated =>
      match s.phase with
      | .enumerated items =>
        some {s with phase := controlTreeRecheck s rootId rootInstanceId items fault unallocated}
      | _ => none
    | .call fault =>
      match s.phase with
      | .controlling (target :: rest) call saved =>
        (lsmProcessControl s.kernel target.pid target.instanceId action fault call).map fun r =>
          {s with phase := .controlling (target :: rest) r.1 saved}
      | _ => none
    | .next =>
      match s.phase with
      | .controlling targets (.returned errno) saved => some {s with phase := controlTreeNext targets errno saved}
      | _ => none

/-- What the call takes from `/proc`, and whom it signals. -/
inductive TreeEvent where
  | recorded (item : PidParent)
  | signalled (task : Nat)

def treeEvents (action : LsmProcessControl) (s : TreeState) : TreeAction → List TreeEvent
  | .entry pid ppid fault =>
    match s.phase with
    | .enumerating _ => (readPidParent s.kernel pid ppid fault).toList.map .recorded
    | _ => []
  | .call fault =>
    match s.phase with
    | .controlling (target :: _) call _ =>
      match lsmProcessControl s.kernel target.pid target.instanceId action fault call with
      | some r => r.2.map .signalled
      | none => []
    | _ => []
  | _ => []

end SystemMonitor.Process
