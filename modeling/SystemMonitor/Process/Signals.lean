import SystemMonitor.Process.Control

/-! Who receives a signal.

A call looks at the PID twice, before and after it opens the pidfd. No two
processes share PID and start time, and a process that has lost its PID never
gets one again; so if the second look finds the process it wants, that process
had the PID all along, and the pidfd is its own. -/
namespace SystemMonitor.Process
open Lib

/-! ### The kernel's processes -/

structure Kernel.Valid (kernel : Kernel) : Prop where
  own : ∀ pid task, kernel.current pid = some task → ∃ t, kernel.tasks[task]? = some t ∧ t.pid = pid
  distinct : kernel.tasks.Nodup

/-- A PID is reused at another time only. -/
def Kernel.Unique (kernel : Kernel) : KernelAction → Prop
  | .exit _ => True
  | .fork pid startTicks => ⟨pid, startTicks⟩ ∉ kernel.tasks

instance (kernel : Kernel) (a : KernelAction) : Decidable (kernel.Unique a) :=
  match a with
  | .exit _ => .isTrue trivial
  | .fork pid startTicks => inferInstanceAs (Decidable ((⟨pid, startTicks⟩ : Task) ∉ kernel.tasks))

theorem Kernel.Valid.step {kernel next : Kernel} (h : kernel.Valid) {a : KernelAction} (hunique : kernel.Unique a)
    (hstep : kernel.step a = some next) : next.Valid := by
  cases a with
  | exit pid =>
    cases hstep
    refine ⟨?_, h.distinct⟩
    intro p task hcurrent
    simp only at hcurrent
    split at hcurrent
    · cases hcurrent
    · exact h.own p task hcurrent
  | fork pid startTicks =>
    simp only [Kernel.step] at hstep
    split at hstep
    · cases hstep
      refine ⟨?_, ?_⟩
      · intro p task hcurrent
        simp only at hcurrent
        split at hcurrent
        · rename_i hpid
          cases hcurrent
          exact ⟨⟨pid, startTicks⟩, by simp, hpid.symm⟩
        · obtain ⟨t, ht, hown⟩ := h.own p task hcurrent
          obtain ⟨hlt, -⟩ := List.getElem?_eq_some_iff.mp ht
          exact ⟨t, by rw [List.getElem?_append_left hlt, ht], hown⟩
      · refine List.nodup_append.mpr ⟨h.distinct, List.nodup_singleton _, ?_⟩
        intro x hx y hy hxy
        rw [hxy, List.mem_singleton.mp hy] at hx
        exact hunique hx
    · cases hstep

/-- A process stays what it was. -/
theorem Kernel.step_tasks {kernel next : Kernel} {a : KernelAction} (hstep : kernel.step a = some next) {task : Nat}
    {t : Task} (ht : kernel.tasks[task]? = some t) : next.tasks[task]? = some t := by
  cases a with
  | exit pid =>
    cases hstep
    exact ht
  | fork pid startTicks =>
    simp only [Kernel.step] at hstep
    split at hstep
    · cases hstep
      obtain ⟨hlt, -⟩ := List.getElem?_eq_some_iff.mp ht
      rw [List.getElem?_append_left hlt, ht]
    · cases hstep

/-- A process that does not have its PID never gets it back. -/
theorem Kernel.step_gone {kernel next : Kernel} {a : KernelAction} (hstep : kernel.step a = some next) {pid task : Nat}
    {t : Task} (ht : kernel.tasks[task]? = some t) (hgone : kernel.current pid ≠ some task) :
    next.current pid ≠ some task := by
  cases a with
  | exit p =>
    cases hstep
    simp only
    split
    · simp
    · exact hgone
  | fork p startTicks =>
    simp only [Kernel.step] at hstep
    split at hstep
    · cases hstep
      simp only
      split
      · obtain ⟨hlt, -⟩ := List.getElem?_eq_some_iff.mp ht
        intro hsame
        have : kernel.tasks.length = task := Option.some.inj hsame
        omega
      · exact hgone
    · cases hstep

/-- What the check has seen. -/
theorem processIdentityPid_ok {kernel : Kernel} (h : kernel.Valid) {processId instanceId : Nat} {fault : Option Nat}
    (hok : processIdentityPid kernel processId instanceId fault = .ok ()) :
    ∃ task, kernel.current processId = some task ∧ kernel.tasks[task]? = some ⟨processId, instanceId⟩ := by
  unfold processIdentityPid at hok
  split at hok
  · cases hok
  · split at hok
    · cases hok
    · rename_i startTicks hread
      split at hok
      · rename_i hsame
        unfold Kernel.readProcessStat at hread
        split at hread
        · cases hread
        · split at hread
          · rename_i t hfound
            cases hread
            obtain ⟨task, hcurrent, ht⟩ := Option.bind_eq_some_iff.mp hfound
            obtain ⟨own, hown, hpid⟩ := h.own processId task hcurrent
            rw [ht] at hown
            cases hown
            refine ⟨task, hcurrent, ?_⟩
            rw [ht, ← hsame, ← hpid]
          · cases hread
      · cases hok

/-! ### One call -/

/-- What a call knows of the process it is for. Once it has the pidfd, either
this is the one it checked, or that one has lost the PID. -/
def Sound (kernel : Kernel) (processId instanceId : Nat) : ControlPhase → Prop
  | .entered | .returned _ => True
  | .checked => ∃ wanted : Nat, kernel.tasks[wanted]? = some (Task.mk processId instanceId)
  | .opened task => ∃ wanted : Nat, kernel.tasks[wanted]? = some (Task.mk processId instanceId) ∧
      (task = wanted ∨ kernel.current processId ≠ some wanted)
  | .verified task => kernel.tasks[task]? = some ⟨processId, instanceId⟩
  | .unsupported | .numeric => False

theorem Sound.kernel {kernel next : Kernel} {processId instanceId : Nat} {phase : ControlPhase}
    (h : Sound kernel processId instanceId phase) {a : KernelAction} (hstep : kernel.step a = some next) :
    Sound next processId instanceId phase := by
  cases phase with
  | entered => trivial
  | checked =>
    obtain ⟨wanted, hwanted⟩ := h
    exact ⟨wanted, Kernel.step_tasks hstep hwanted⟩
  | opened task =>
    obtain ⟨wanted, hwanted, hor⟩ := h
    refine ⟨wanted, Kernel.step_tasks hstep hwanted, ?_⟩
    rcases hor with hsame | hgone
    · exact Or.inl hsame
    · exact Or.inr (Kernel.step_gone hstep hwanted hgone)
  | verified task => exact Kernel.step_tasks hstep h
  | unsupported => exact h
  | numeric => exact h
  | returned errno => trivial

/-- The two `pidfd` system calls exist. -/
def Supported (fault : Option Nat) : ControlPhase → Prop
  | .checked | .verified _ => fault ≠ some enosys
  | _ => True

instance (fault : Option Nat) (phase : ControlPhase) : Decidable (Supported fault phase) :=
  match phase with
  | .checked | .verified _ => inferInstanceAs (Decidable (fault ≠ some enosys))
  | .entered | .opened _ | .unsupported | .numeric | .returned _ => .isTrue trivial

theorem pidfdFailed_eq {errno : Nat} (hsupported : some errno ≠ some enosys) :
    pidfdFailed errno = .returned errno := by
  unfold pidfdFailed
  rw [if_neg]
  intro hno
  exact hsupported (congrArg some hno)

/-- One interaction: what it signals is the process the call is for. -/
theorem Sound.call {kernel : Kernel} (hvalid : kernel.Valid) {processId instanceId : Nat} {action : LsmProcessControl}
    {fault : Option Nat} {phase : ControlPhase} (hsupported : Supported fault phase)
    (h : Sound kernel processId instanceId phase) {r : ControlPhase × List Nat}
    (hcall : lsmProcessControl kernel processId instanceId action fault phase = some r) :
    Sound kernel processId instanceId r.1 ∧
      ∀ task ∈ r.2, kernel.tasks[task]? = some ⟨processId, instanceId⟩ := by
  cases phase with
  | entered =>
    simp only [lsmProcessControl] at hcall
    split at hcall
    · cases hcall
      exact ⟨trivial, fun _ h => absurd h List.not_mem_nil⟩
    · split at hcall
      · cases hcall
        exact ⟨trivial, fun _ h => absurd h List.not_mem_nil⟩
      · rename_i hok
        obtain ⟨task, -, htask⟩ := processIdentityPid_ok hvalid hok
        split at hcall
        · cases hcall
          exact ⟨trivial, fun _ h => absurd h List.not_mem_nil⟩
        · cases hcall
          exact ⟨⟨task, htask⟩, fun _ h => absurd h List.not_mem_nil⟩
  | checked =>
    obtain ⟨wanted, hwanted⟩ := h
    simp only [lsmProcessControl] at hcall
    split at hcall
    · rename_i errno
      cases hcall
      rw [pidfdFailed_eq hsupported]
      exact ⟨trivial, fun _ h => absurd h List.not_mem_nil⟩
    · split at hcall
      · rename_i task hcurrent
        cases hcall
        refine ⟨⟨wanted, hwanted, ?_⟩, fun _ h => absurd h List.not_mem_nil⟩
        by_cases hsame : task = wanted
        · exact Or.inl hsame
        · refine Or.inr ?_
          rw [hcurrent]
          intro heq
          exact hsame (Option.some.inj heq)
      · cases hcall
        exact ⟨trivial, fun _ h => absurd h List.not_mem_nil⟩
  | opened task =>
    obtain ⟨wanted, hwanted, hor⟩ := h
    simp only [lsmProcessControl] at hcall
    split at hcall
    · cases hcall
      exact ⟨trivial, fun _ h => absurd h List.not_mem_nil⟩
    · rename_i hok
      cases hcall
      refine ⟨?_, fun _ h => absurd h List.not_mem_nil⟩
      -- The process now seen is the one seen before, so it never lost the PID.
      obtain ⟨seen, hcurrent, hseen⟩ := processIdentityPid_ok hvalid hok
      have hsame : seen = wanted := by
        obtain ⟨hlt, -⟩ := List.getElem?_eq_some_iff.mp hseen
        exact (List.getElem?_inj hlt hvalid.distinct).mp (hseen.trans hwanted.symm)
      rcases hor with rfl | hgone
      · exact hwanted
      · rw [hcurrent, hsame] at hgone
        exact absurd rfl hgone
  | verified task =>
    simp only [lsmProcessControl] at hcall
    split at hcall
    · rename_i errno
      cases hcall
      rw [pidfdFailed_eq hsupported]
      exact ⟨trivial, fun _ h => absurd h List.not_mem_nil⟩
    · split at hcall
      · cases hcall
        refine ⟨trivial, ?_⟩
        intro t ht
        rw [List.mem_singleton.mp ht]
        exact h
      · cases hcall
        exact ⟨trivial, fun _ h => absurd h List.not_mem_nil⟩
  | unsupported => exact absurd h id
  | numeric => exact absurd h id
  | returned errno => cases hcall

/-- The kernel does not reuse a PID at its old time, and has the system calls. -/
def ControlRule (s : ControlState) : ControlAction → Prop
  | .kernel a => s.kernel.Unique a
  | .call fault => Supported fault s.phase

structure Controlled (processId instanceId : Nat) (log : List Nat) (s : ControlState) : Prop where
  valid : s.kernel.Valid
  sound : Sound s.kernel processId instanceId s.phase
  reached : ∀ task ∈ log, s.kernel.tasks[task]? = some ⟨processId, instanceId⟩

theorem Controlled.step {processId instanceId : Nat} {action : LsmProcessControl} {log : List Nat}
    {s next : ControlState} (h : Controlled processId instanceId log s) {a : ControlAction} (hrule : ControlRule s a)
    (hstep : (control processId instanceId action).step s a = some next) :
    Controlled processId instanceId (log ++ controlSignals processId instanceId action s a) next := by
  cases a with
  | kernel a =>
    obtain ⟨kernel, hkernel, rfl⟩ := Option.map_eq_some_iff.mp hstep
    refine ⟨h.valid.step hrule hkernel, h.sound.kernel hkernel, ?_⟩
    intro task htask
    rw [controlSignals, List.append_nil] at htask
    exact Kernel.step_tasks hkernel (h.reached task htask)
  | call fault =>
    obtain ⟨r, hcall, rfl⟩ := Option.map_eq_some_iff.mp hstep
    obtain ⟨hsound, hsignalled⟩ := h.sound.call h.valid hrule hcall
    refine ⟨h.valid, hsound, ?_⟩
    intro task htask
    simp only [controlSignals, hcall] at htask
    rcases List.mem_append.mp htask with hold | hnew
    · exact h.reached task hold
    · exact hsignalled task hnew

theorem Controlled.run {kernel : Kernel} (hvalid : kernel.Valid) {processId instanceId : Nat}
    {action : LsmProcessControl} {actions : List ControlAction} {s : ControlState}
    (hrules : (control processId instanceId action).Admissible ControlRule ⟨kernel, .entered⟩ actions)
    (hrun : (control processId instanceId action).run ⟨kernel, .entered⟩ actions = some s) :
    Controlled processId instanceId
      ((control processId instanceId action).trace (controlSignals processId instanceId action) ⟨kernel, .entered⟩
        actions) s := by
  have hstart : Controlled processId instanceId [] ⟨kernel, .entered⟩ :=
    ⟨hvalid, trivial, fun _ h => absurd h List.not_mem_nil⟩
  have h := (control processId instanceId action).run_trace_invariant (controlSignals processId instanceId action)
    ControlRule (Controlled processId instanceId) (fun _ _ _ _ h hrule hstep => h.step hrule hstep) hstart hrules hrun
  rwa [List.nil_append] at h

/-! ### A tree -/

def TreeSupported (fault : Option Nat) : TreePhase → Prop
  | .controlling _ call _ => Supported fault call
  | _ => True

instance (fault : Option Nat) (phase : TreePhase) : Decidable (TreeSupported fault phase) :=
  match phase with
  | .controlling _ call _ => inferInstanceAs (Decidable (Supported fault call))
  | .entered | .enumerating _ | .enumerated _ | .returned _ => .isTrue trivial

def TreeRule (s : TreeState) : TreeAction → Prop
  | .kernel a => s.kernel.Unique a
  | .call fault => TreeSupported fault s.phase
  | _ => True

instance (s : TreeState) (a : TreeAction) : Decidable (TreeRule s a) :=
  match a with
  | .kernel a => inferInstanceAs (Decidable (s.kernel.Unique a))
  | .call fault => inferInstanceAs (Decidable (TreeSupported fault s.phase))
  | .enter .. | .entry .. | .enumerationFails _ | .endOfDirectory | .recheck .. | .next => .isTrue trivial

/-- The root itself, or a process whose PID and start time the call has read in `/proc`. -/
def Intended (rootId rootInstanceId : Nat) (log : List TreeEvent) (pid instanceId : Nat) : Prop :=
  (pid = rootId ∧ instanceId = rootInstanceId) ∨
    ∃ item, .recorded item ∈ log ∧ item.pid = pid ∧ item.instanceId = instanceId

theorem Intended.append {rootId rootInstanceId : Nat} {log : List TreeEvent} {pid instanceId : Nat}
    (h : Intended rootId rootInstanceId log pid instanceId) (more : List TreeEvent) :
    Intended rootId rootInstanceId (log ++ more) pid instanceId := by
  rcases h with hroot | ⟨item, hitem, hsame⟩
  · exact Or.inl hroot
  · exact Or.inr ⟨item, List.mem_append_left _ hitem, hsame⟩

/-- The depth is all that the descendants add to their records. -/
theorem mem_descendantItems {items : List PidParent} {root : Nat} {target : PidParent}
    (h : target ∈ descendantItems items root) :
    ∃ item ∈ items, item.pid = target.pid ∧ item.instanceId = target.instanceId := by
  rw [descendantItems, List.mem_insertionSort, List.mem_filter, List.mem_map] at h
  obtain ⟨⟨item, hitem, rfl⟩, -⟩ := h
  exact ⟨item, (List.mem_insertionSort _).mp hitem, rfl, rfl⟩

/-- Where the tree call's targets come from. -/
def Targeted (rootId rootInstanceId : Nat) (log : List TreeEvent) (kernel : Kernel) : TreePhase → Prop
  | .entered | .returned _ => True
  | .enumerating items | .enumerated items => ∀ item ∈ items, .recorded item ∈ log
  | .controlling targets call _ => (∀ target ∈ targets, Intended rootId rootInstanceId log target.pid target.instanceId) ∧
      ∀ target ∈ targets.head?, Sound kernel target.pid target.instanceId call

structure TreeControlled (rootId rootInstanceId : Nat) (log : List TreeEvent) (s : TreeState) : Prop where
  valid : s.kernel.Valid
  targeted : Targeted rootId rootInstanceId log s.kernel s.phase
  reached : ∀ task, .signalled task ∈ log → ∃ pid instanceId, s.kernel.tasks[task]? = some ⟨pid, instanceId⟩ ∧
    Intended rootId rootInstanceId log pid instanceId

theorem Targeted.kernel {rootId rootInstanceId : Nat} {log : List TreeEvent} {kernel next : Kernel} {phase : TreePhase}
    (h : Targeted rootId rootInstanceId log kernel phase) {a : KernelAction} (hstep : kernel.step a = some next) :
    Targeted rootId rootInstanceId log next phase := by
  cases phase with
  | entered => trivial
  | enumerating items => exact h
  | enumerated items => exact h
  | controlling targets call saved => exact ⟨h.1, fun target htarget => (h.2 target htarget).kernel hstep⟩
  | returned errno => trivial

section Steps
variable {rootId rootInstanceId : Nat} {log : List TreeEvent} {s : TreeState}

/-- A step that signals nobody. -/
theorem TreeControlled.quiet (h : TreeControlled rootId rootInstanceId log s) {phase : TreePhase}
    (hphase : Targeted rootId rootInstanceId log s.kernel phase) :
    TreeControlled rootId rootInstanceId (log ++ []) {s with phase} := by
  rw [List.append_nil]
  exact ⟨h.valid, hphase, h.reached⟩

theorem TreeControlled.kernel (h : TreeControlled rootId rootInstanceId log s) {a : KernelAction}
    (hunique : s.kernel.Unique a) {kernel : Kernel} (hkernel : s.kernel.step a = some kernel) :
    TreeControlled rootId rootInstanceId (log ++ []) {s with kernel} := by
  rw [List.append_nil]
  refine ⟨h.valid.step hunique hkernel, h.targeted.kernel hkernel, ?_⟩
  intro task htask
  obtain ⟨pid, instanceId, ht, hintended⟩ := h.reached task htask
  exact ⟨pid, instanceId, Kernel.step_tasks hkernel ht, hintended⟩

theorem TreeControlled.entry (h : TreeControlled rootId rootInstanceId log s) {items : List PidParent}
    (hitems : ∀ item ∈ items, .recorded item ∈ log) (found : List PidParent) :
    TreeControlled rootId rootInstanceId (log ++ found.map .recorded) {s with phase := .enumerating (items ++ found)} := by
  refine ⟨h.valid, ?_, ?_⟩
  · intro item hitem
    rcases List.mem_append.mp hitem with hold | hnew
    · exact List.mem_append_left _ (hitems item hold)
    · exact List.mem_append_right _ (List.mem_map_of_mem hnew)
  · intro task htask
    rcases List.mem_append.mp htask with hold | hnew
    · obtain ⟨pid, instanceId, ht, hintended⟩ := h.reached task hold
      exact ⟨pid, instanceId, ht, hintended.append _⟩
    · obtain ⟨item, -, heq⟩ := List.mem_map.mp hnew
      cases heq

theorem targeted_recheck {items : List PidParent}
    (hitems : ∀ item ∈ items, .recorded item ∈ log) (fault unallocated : Option Nat) :
    Targeted rootId rootInstanceId log s.kernel
      (controlTreeRecheck s rootId rootInstanceId items fault unallocated) := by
  unfold controlTreeRecheck
  split
  · trivial
  · split
    · trivial
    · refine ⟨?_, fun _ _ => trivial⟩
      intro target htarget
      rcases List.mem_append.mp htarget with hdescendant | hroot
      · obtain ⟨item, hitem, hpid, hinstance⟩ := mem_descendantItems hdescendant
        exact Or.inr ⟨item, hitems item hitem, hpid, hinstance⟩
      · rw [List.mem_singleton.mp hroot]
        exact Or.inl ⟨rfl, rfl⟩

theorem TreeControlled.call (h : TreeControlled rootId rootInstanceId log s) {action : LsmProcessControl}
    {fault : Option Nat} {target : PidParent} {rest : List PidParent} {call : ControlPhase} {saved : Nat}
    (hphase : s.phase = .controlling (target :: rest) call saved) (hsupported : Supported fault call)
    {r : ControlPhase × List Nat}
    (hcall : lsmProcessControl s.kernel target.pid target.instanceId action fault call = some r) :
    TreeControlled rootId rootInstanceId (log ++ r.2.map .signalled)
      {s with phase := .controlling (target :: rest) r.1 saved} := by
  have htargeted := h.targeted
  rw [hphase] at htargeted
  obtain ⟨hintended, hsound⟩ := htargeted
  obtain ⟨hsound, hsignalled⟩ := (hsound target rfl).call h.valid hsupported hcall
  refine ⟨h.valid, ⟨fun t ht => (hintended t ht).append _, ?_⟩, ?_⟩
  · intro t ht
    cases ht
    exact hsound
  · intro task htask
    rcases List.mem_append.mp htask with hold | hnew
    · obtain ⟨pid, instanceId, ht, hold⟩ := h.reached task hold
      exact ⟨pid, instanceId, ht, hold.append _⟩
    · obtain ⟨t, ht, heq⟩ := List.mem_map.mp hnew
      cases heq
      exact ⟨target.pid, target.instanceId, hsignalled task ht, (hintended target (List.mem_cons_self ..)).append _⟩

theorem TreeControlled.next (h : TreeControlled rootId rootInstanceId log s) {targets : List PidParent}
    {call : ControlPhase} {saved : Nat} (hphase : s.phase = .controlling targets call saved) (errno : Nat) :
    Targeted rootId rootInstanceId log s.kernel (controlTreeNext targets errno saved) := by
  have htargeted := h.targeted
  rw [hphase] at htargeted
  simp only [controlTreeNext]
  split
  · trivial
  · exact ⟨fun target htarget => htargeted.1 target (List.mem_of_mem_tail htarget), fun _ _ => trivial⟩

end Steps

theorem TreeControlled.step {rootId rootInstanceId : Nat} {action : LsmProcessControl} {log : List TreeEvent}
    {s next : TreeState} (h : TreeControlled rootId rootInstanceId log s) {a : TreeAction} (hrule : TreeRule s a)
    (hstep : (controlTree rootId rootInstanceId action).step s a = some next) :
    TreeControlled rootId rootInstanceId (log ++ treeEvents action s a) next := by
  have htargeted := h.targeted
  cases a with
  | kernel a =>
    obtain ⟨kernel, hkernel, rfl⟩ := Option.map_eq_some_iff.mp hstep
    exact h.kernel hrule hkernel
  | enter fault unopened =>
    cases hphase : s.phase with
    | entered =>
      simp only [controlTree, hphase] at hstep
      cases hstep
      refine h.quiet ?_
      unfold controlTreeEnter
      split
      · trivial
      · split
        · trivial
        · split
          · trivial
          · exact fun _ h => absurd h List.not_mem_nil
    | _ => simp only [controlTree, hphase, reduceCtorEq] at hstep
  | entry pid ppid fault =>
    cases hphase : s.phase with
    | enumerating items =>
      rw [hphase] at htargeted
      simp only [controlTree, hphase] at hstep
      cases hstep
      simp only [treeEvents, hphase]
      exact h.entry htargeted _
    | _ => simp only [controlTree, hphase, reduceCtorEq] at hstep
  | enumerationFails errno =>
    cases hphase : s.phase with
    | enumerating items =>
      simp only [controlTree, hphase] at hstep
      cases hstep
      exact h.quiet trivial
    | _ => simp only [controlTree, hphase, reduceCtorEq] at hstep
  | endOfDirectory =>
    cases hphase : s.phase with
    | enumerating items =>
      rw [hphase] at htargeted
      simp only [controlTree, hphase] at hstep
      cases hstep
      exact h.quiet htargeted
    | _ => simp only [controlTree, hphase, reduceCtorEq] at hstep
  | recheck fault unallocated =>
    cases hphase : s.phase with
    | enumerated items =>
      rw [hphase] at htargeted
      simp only [controlTree, hphase] at hstep
      cases hstep
      exact h.quiet (targeted_recheck htargeted fault unallocated)
    | _ => simp only [controlTree, hphase, reduceCtorEq] at hstep
  | call fault =>
    simp only [controlTree] at hstep
    split at hstep
    · rename_i target rest call saved hphase
      obtain ⟨r, hcall, rfl⟩ := Option.map_eq_some_iff.mp hstep
      simp only [treeEvents, hphase, hcall]
      simp only [TreeRule, TreeSupported, hphase] at hrule
      exact h.call hphase hrule hcall
    · cases hstep
  | next =>
    simp only [controlTree] at hstep
    split at hstep
    · rename_i targets errno saved hphase
      cases hstep
      exact h.quiet (h.next hphase errno)
    · cases hstep

theorem TreeControlled.run {kernel : Kernel} (hvalid : kernel.Valid) {rootId rootInstanceId : Nat}
    {action : LsmProcessControl} {actions : List TreeAction} {s : TreeState}
    (hrules : (controlTree rootId rootInstanceId action).Admissible TreeRule ⟨kernel, .entered⟩ actions)
    (hrun : (controlTree rootId rootInstanceId action).run ⟨kernel, .entered⟩ actions = some s) :
    TreeControlled rootId rootInstanceId
      ((controlTree rootId rootInstanceId action).trace (treeEvents action) ⟨kernel, .entered⟩ actions) s := by
  have hstart : TreeControlled rootId rootInstanceId [] ⟨kernel, .entered⟩ :=
    ⟨hvalid, trivial, fun _ h => absurd h List.not_mem_nil⟩
  have h := (controlTree rootId rootInstanceId action).run_trace_invariant (treeEvents action) TreeRule
    (TreeControlled rootId rootInstanceId) (fun _ _ _ _ h hrule hstep => h.step hrule hstep) hstart hrules hrun
  rwa [List.nil_append] at h

/-- Whatever exits and forks fall between the steps of a call, a signal reaches
the instance the call was given; the tree call's reach the root it was given and
instances it has recorded. -/
theorem signals_intended {kernel : Kernel} (hvalid : kernel.Valid) (action : LsmProcessControl) :
    (∀ processId instanceId actions s,
      (control processId instanceId action).Admissible ControlRule ⟨kernel, .entered⟩ actions →
      (control processId instanceId action).run ⟨kernel, .entered⟩ actions = some s →
      ∀ task ∈ (control processId instanceId action).trace (controlSignals processId instanceId action)
        ⟨kernel, .entered⟩ actions, s.kernel.tasks[task]? = some ⟨processId, instanceId⟩) ∧
    (∀ rootId rootInstanceId actions s,
      (controlTree rootId rootInstanceId action).Admissible TreeRule ⟨kernel, .entered⟩ actions →
      (controlTree rootId rootInstanceId action).run ⟨kernel, .entered⟩ actions = some s →
      ∀ task, .signalled task ∈ (controlTree rootId rootInstanceId action).trace (treeEvents action)
          ⟨kernel, .entered⟩ actions →
        ∃ pid instanceId, s.kernel.tasks[task]? = some ⟨pid, instanceId⟩ ∧
          Intended rootId rootInstanceId ((controlTree rootId rootInstanceId action).trace (treeEvents action)
            ⟨kernel, .entered⟩ actions) pid instanceId) :=
  ⟨fun _ _ _ _ hrules hrun => (Controlled.run hvalid hrules hrun).reached,
    fun _ _ _ _ hrules hrun => (TreeControlled.run hvalid hrules hrun).reached⟩

/-- One process, with PID 7, and its child 8. -/
def familyKernel : Kernel where
  tasks := [⟨7, 100⟩, ⟨8, 110⟩]
  current pid := if pid = 7 then some 0 else if pid = 8 then some 1 else none

theorem familyKernel_valid : familyKernel.Valid := by
  refine ⟨?_, by decide⟩
  intro pid task hcurrent
  simp only [familyKernel] at hcurrent
  split at hcurrent
  · rename_i hpid
    cases hcurrent
    exact ⟨⟨7, 100⟩, rfl, hpid.symm⟩
  · split at hcurrent
    · rename_i hpid
      cases hcurrent
      exact ⟨⟨8, 110⟩, rfl, hpid.symm⟩
    · cases hcurrent

/-- The child leaves its PID to another process after the snapshot; the root is
still signalled. -/
def reusedChild : List TreeAction :=
  [.enter none none, .entry 7 1 none, .entry 8 7 none, .endOfDirectory, .recheck none none, .kernel (.exit 8),
    .kernel (.fork 8 120), .call none, .next, .call none, .call none, .call none, .call none]

theorem reusedChild_admissible :
    (controlTree 7 100 .terminate).Admissible TreeRule ⟨familyKernel, .entered⟩ reusedChild := by
  decide

theorem signals_intended_reusedChild :
    ∃ s, (controlTree 7 100 .terminate).run ⟨familyKernel, .entered⟩ reusedChild = some s ∧
      ∃ pid instanceId, s.kernel.tasks[0]? = some ⟨pid, instanceId⟩ ∧
        Intended 7 100 ((controlTree 7 100 .terminate).trace (treeEvents .terminate) ⟨familyKernel, .entered⟩
          reusedChild) pid instanceId := by
  obtain ⟨s, hrun, -⟩ := (controlTree 7 100 .terminate).run_decided (p := fun _ => True)
    (show ((controlTree 7 100 .terminate).run ⟨familyKernel, .entered⟩ reusedChild).map _ = some true by decide)
  have htrace : (controlTree 7 100 .terminate).trace (treeEvents .terminate) ⟨familyKernel, .entered⟩ reusedChild =
      [.recorded ⟨7, 1, 100, 0⟩, .recorded ⟨8, 7, 110, 0⟩, .signalled 0] := rfl
  refine ⟨s, hrun, (signals_intended familyKernel_valid .terminate).2 7 100 reusedChild s reusedChild_admissible hrun 0 ?_⟩
  rw [htrace]
  simp

/-- The root's record cannot be read during the enumeration (the process has too
many files open), and can be before and after. -/
def unreadableRoot : List TreeAction :=
  [.enter none none, .entry 7 1 (some 24), .endOfDirectory, .recheck none none, .call none, .call none, .call none,
    .call none]

theorem unrecorded_root :
    familyKernel.Valid ∧
    (controlTree 7 100 .terminate).Admissible TreeRule ⟨familyKernel, .entered⟩ unreadableRoot ∧
    (∃ s, (controlTree 7 100 .terminate).run ⟨familyKernel, .entered⟩ unreadableRoot = some s) ∧
    (controlTree 7 100 .terminate).trace (treeEvents .terminate) ⟨familyKernel, .entered⟩ unreadableRoot =
      [.signalled 0] := by
  refine ⟨familyKernel_valid, by decide, ?_, rfl⟩
  obtain ⟨s, hrun, -⟩ := (controlTree 7 100 .terminate).run_decided (p := fun _ => True)
    (show ((controlTree 7 100 .terminate).run ⟨familyKernel, .entered⟩ unreadableRoot).map _ = some true by
      decide)
  exact ⟨s, hrun⟩

end SystemMonitor.Process
