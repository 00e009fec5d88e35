import SystemMonitor.Lib.ParentWalk
import SystemMonitor.Process.Signals

/-! The order in which a process tree is signalled.

The snapshot's PPIDs are a partial parent function on PIDs, and nothing keeps them from
forming cycles: the snapshot is not taken at one instant, and a PID can be used again
while it is. A process is a target when its PPIDs lead to the root, and its depth is the
number of steps that takes. Depth falls along every chain below the root, so calling
for the deepest first calls for each process before its ancestors up to the root
(`descendants_order`); an ancestor beyond the root is there only when the root is on a
cycle itself (`ring_order`). `control_tree_order` follows the calls to their end. -/
namespace SystemMonitor.Process
open Lib Lib.ParentWalk

/-! ### Parents in a snapshot -/

/-- The snapshot has a process with the first PID whose PPID is the second. -/
def Parent (items : List PidParent) (pid ppid : Nat) : Prop := ∃ item ∈ items, item.pid = pid ∧ item.ppid = ppid

def parentOf (items : List PidParent) (pid : Nat) : Option Nat := (findPidParent items pid).map (·.ppid)

theorem findPidParent_eq_some {items : List PidParent} (hsorted : items.Pairwise fun a b => a.pid < b.pid) {pid : Nat}
    {item : PidParent} : findPidParent items pid = some item ↔ item ∈ items ∧ item.pid = pid := by
  have hat : ∀ {i : Nat} (hi : i < items.length), (items.getD i ⟨0, 0, 0, 0⟩).pid = items[i].pid := by
    intro i hi
    rw [List.getD_eq_getElem?_getD, List.getElem?_eq_getElem hi]
    rfl
  have hascending : Ascending (fun i => (items.getD i ⟨0, 0, 0, 0⟩).pid) items.length := by
    intro i j hij hj
    simp only [hat hj, hat (hij.trans hj)]
    exact List.pairwise_iff_getElem.mp hsorted i j (hij.trans hj) hj hij
  constructor
  · intro hfind
    simp only [findPidParent] at hfind
    split at hfind
    · rename_i found hfound
      split at hfind
      · rename_i hpid
        cases hfind
        exact ⟨List.mem_of_getElem? hfound, hpid⟩
      · cases hfind
    · cases hfind
  · intro ⟨hmem, hpid⟩
    obtain ⟨i, hi, hitem⟩ := List.getElem_of_mem hmem
    have hkey : (items.getD i ⟨0, 0, 0, 0⟩).pid = pid := by rw [hat hi, hitem, hpid]
    rw [findPidParent, lowerBound_hit _ _ hascending hi hkey, List.getElem?_eq_getElem hi]
    simp only [hitem, if_pos hpid]

theorem step_parentOf {items : List PidParent} (hsorted : items.Pairwise fun a b => a.pid < b.pid) :
    Step (parentOf items) = Parent items := by
  funext pid ppid
  apply propext
  simp only [Step, parentOf, Option.map_eq_some_iff, findPidParent_eq_some hsorted, Parent, and_assoc]

theorem processDepthLoop_eq (items : List PidParent) (root guard current depth : Nat) :
    processDepthLoop items root guard current depth = walk (parentOf items) root guard current depth := by
  induction guard generalizing current depth with
  | zero => rfl
  | succ guard ih =>
    simp only [processDepthLoop, walk, parentOf]
    split
    · rfl
    · cases findPidParent items current with
      | none => rfl
      | some record => exact ih record.ppid (depth + 1)

/-- The depth of a process is its distance from the root. -/
theorem processDepth_eq {items : List PidParent} (hsorted : items.Pairwise fun a b => a.pid < b.pid) {root n pid : Nat}
    (h : At (parentOf items) root n pid) : processDepth items pid root = n := by
  have hkeys : ∀ k, (parentOf items k).isSome = true → k ∈ items.map (·.pid) := by
    intro k hk
    rw [parentOf, Option.isSome_map] at hk
    obtain ⟨item, hitem⟩ := Option.isSome_iff_exists.mp hk
    obtain ⟨hmem, rfl⟩ := (findPidParent_eq_some hsorted).mp hitem
    exact List.mem_map_of_mem hmem
  have hguard : n ≤ items.length := by
    have hle := h.le_length hkeys
    rwa [List.length_map] at hle
  rw [processDepth, processDepthLoop_eq, walk_eq h hguard, Nat.zero_add]

theorem processDepth_pos {items : List PidParent} (hsorted : items.Pairwise fun a b => a.pid < b.pid) {root pid : Nat} :
    0 < processDepth items pid root ↔ pid ≠ root ∧ Relation.ReflTransGen (Parent items) pid root := by
  rw [← step_parentOf hsorted]
  constructor
  · intro hpos
    by_contra hnot
    have hat : ∀ n, ¬ At (parentOf items) root n pid := by
      intro n hn
      rw [processDepth_eq hsorted hn] at hpos
      cases n with
      | zero => exact absurd hpos (Nat.lt_irrefl 0)
      | succ n => exact hnot ⟨hn.1, hn.reaches⟩
    rw [processDepth, processDepthLoop_eq, walk_eq_zero hat] at hpos
    exact absurd hpos (Nat.lt_irrefl 0)
  · intro ⟨hne, hreach⟩
    obtain ⟨n, hn⟩ := exists_at hreach
    rw [processDepth_eq hsorted hn]
    cases n with
    | zero => exact absurd hn hne
    | succ n => exact Nat.succ_pos n

/-! ### The order of the targets -/

/-- The PPID chain of the first process passes the second without going through the root. -/
def Ancestor (items : List PidParent) (root : Nat) : Nat → Nat → Prop :=
  Relation.TransGen fun a b => a ≠ root ∧ Parent items a b

/-- Who is called for before the root, as PID and instance: the processes that descend from it,
each before its ancestors. -/
structure TreeOrder (items : List PidParent) (root : Nat) (order : List (Nat × Nat)) : Prop where
  nodup : (order.map Prod.fst).Nodup
  descendants : ∀ pid instanceId, (pid, instanceId) ∈ order ↔
    (∃ item ∈ items, item.pid = pid ∧ item.instanceId = instanceId) ∧
      pid ≠ root ∧ Relation.ReflTransGen (Parent items) pid root
  ancestors : order.Pairwise fun earlier later => ¬ Ancestor items root later.1 earlier.1
  /-- Unless the root descends from itself, all ancestors are below it. -/
  acyclic : ¬ Relation.TransGen (Parent items) root root →
    order.Pairwise fun earlier later => ¬ Relation.TransGen (Parent items) later.1 earlier.1

def called (targets : List PidParent) : List (Nat × Nat) := targets.map fun target => (target.pid, target.instanceId)

/-- The snapshot as the depths are computed on it. -/
def byPid (items : List PidParent) : List PidParent := items.insertionSort fun a b => a.pid ≤ b.pid

theorem byPid_perm (items : List PidParent) : (byPid items).Perm items := List.perm_insertionSort _ items

theorem byPid_sorted {items : List PidParent} (hpids : (items.map (·.pid)).Nodup) :
    (byPid items).Pairwise fun a b => a.pid < b.pid := by
  have : Std.Total fun a b : PidParent => a.pid ≤ b.pid := ⟨fun a b => Nat.le_total a.pid b.pid⟩
  have : IsTrans PidParent fun a b => a.pid ≤ b.pid := ⟨fun _ _ _ => Nat.le_trans⟩
  have hle : (byPid items).Pairwise fun a b => a.pid ≤ b.pid :=
    List.pairwise_insertionSort (fun a b : PidParent => a.pid ≤ b.pid) items
  have hne : (byPid items).Pairwise fun a b => a.pid ≠ b.pid := by
    apply List.pairwise_map.mp
    exact ((byPid_perm items).map (·.pid)).nodup_iff.mpr hpids
  exact (hle.and hne).imp fun h => Nat.lt_of_le_of_ne h.1 h.2

theorem parent_byPid (items : List PidParent) : Parent (byPid items) = Parent items := by
  funext pid ppid
  simp only [Parent, (byPid_perm items).mem_iff]

theorem depthDescending_sorted (items : List PidParent) :
    (items.insertionSort depthDescending).Pairwise depthDescending := by
  have : Std.Total depthDescending := ⟨fun a b => by simp only [depthDescending]; omega⟩
  have : IsTrans PidParent depthDescending := ⟨fun a b c => by simp only [depthDescending]; omega⟩
  exact List.pairwise_insertionSort depthDescending items

theorem mem_descendantItems_iff {items : List PidParent} {root : Nat} {target : PidParent} :
    target ∈ descendantItems items root ↔
      ∃ item ∈ items, {item with depth := processDepth (byPid items) item.pid root} = target ∧ 0 < target.depth := by
  rw [descendantItems, List.mem_insertionSort, List.mem_filter, List.mem_map]
  constructor
  · intro h
    obtain ⟨⟨item, hitem, hsame⟩, hpos⟩ := h
    exact ⟨item, (byPid_perm items).mem_iff.mp hitem, hsame, of_decide_eq_true hpos⟩
  · intro h
    obtain ⟨item, hitem, hsame, hpos⟩ := h
    exact ⟨⟨item, (byPid_perm items).mem_iff.mpr hitem, hsame⟩, decide_eq_true hpos⟩

theorem descendantItems_nodup {items : List PidParent} (hpids : (items.map (·.pid)).Nodup) (root : Nat) :
    ((descendantItems items root).map (·.pid)).Nodup := by
  have hperm : (descendantItems items root).Perm
      (((byPid items).map fun item => {item with depth := processDepth (byPid items) item.pid root}).filter
        fun item => 0 < item.depth) := List.perm_insertionSort _ _
  refine (hperm.map (·.pid)).nodup_iff.mpr ?_
  refine List.Nodup.sublist (List.filter_sublist.map _) ?_
  rw [List.map_map]
  exact ((byPid_perm items).map (·.pid)).nodup_iff.mpr hpids

theorem mem_called_descendantItems {items : List PidParent} (hpids : (items.map (·.pid)).Nodup)
    {root pid instanceId : Nat} : (pid, instanceId) ∈ called (descendantItems items root) ↔
      (∃ item ∈ items, item.pid = pid ∧ item.instanceId = instanceId) ∧
        pid ≠ root ∧ Relation.ReflTransGen (Parent items) pid root := by
  rw [called, List.mem_map, ← parent_byPid, ← processDepth_pos (byPid_sorted hpids)]
  constructor
  · intro ⟨target, htarget, hsame⟩
    cases hsame
    obtain ⟨item, hitem, rfl, hpos⟩ := mem_descendantItems_iff.mp htarget
    exact ⟨⟨item, hitem, rfl, rfl⟩, hpos⟩
  · intro ⟨⟨item, hitem, hpid, hinstance⟩, hpos⟩
    subst hpid hinstance
    exact ⟨_, mem_descendantItems_iff.mpr ⟨item, hitem, rfl, hpos⟩, rfl⟩

/-- Every target is at its depth. -/
theorem at_depth {items : List PidParent} (hpids : (items.map (·.pid)).Nodup) {root : Nat} {target : PidParent}
    (h : target ∈ descendantItems items root) : At (parentOf (byPid items)) root target.depth target.pid := by
  obtain ⟨item, -, rfl, hpos⟩ := mem_descendantItems_iff.mp h
  obtain ⟨-, hreach⟩ := (processDepth_pos (byPid_sorted hpids)).mp hpos
  rw [← step_parentOf (byPid_sorted hpids)] at hreach
  obtain ⟨n, hn⟩ := exists_at hreach
  rw [processDepth_eq (byPid_sorted hpids) hn]
  exact hn

theorem stepBelow_byPid {items : List PidParent} (hpids : (items.map (·.pid)).Nodup) (root : Nat) :
    Relation.TransGen (StepBelow (parentOf (byPid items)) root) = Ancestor items root := by
  rw [Ancestor, ← parent_byPid, ← step_parentOf (byPid_sorted hpids)]
  rfl

/-- **The deepest first is each before its ancestors.** -/
theorem descendants_order {items : List PidParent} (hpids : (items.map (·.pid)).Nodup) (root : Nat) :
    TreeOrder items root (called (descendantItems items root)) := by
  have hbefore : (called (descendantItems items root)).Pairwise fun earlier later =>
      ¬ Ancestor items root later.1 earlier.1 := by
    refine List.pairwise_map.mpr ((depthDescending_sorted _).imp_of_mem ?_)
    intro earlier later hearlier hlater hdepth hancestor
    rw [← stepBelow_byPid hpids] at hancestor
    obtain ⟨m, hm, hat⟩ := (at_depth hpids hlater).below hancestor
    have hsame := hat.unique (at_depth hpids hearlier)
    rcases hdepth with hdepth | ⟨hdepth, -⟩ <;> omega
  refine ⟨?_, fun pid instanceId => mem_called_descendantItems hpids, hbefore, ?_⟩
  · rw [called, List.map_map]
    exact descendantItems_nodup hpids root
  · intro hcycle
    refine hbefore.imp_of_mem ?_
    intro earlier later hearlier _ hbelow hancestor
    obtain ⟨-, -, hreach⟩ := (mem_called_descendantItems hpids).mp hearlier
    refine hbelow ?_
    rw [← stepBelow_byPid hpids]
    rw [← parent_byPid, ← step_parentOf (byPid_sorted hpids)] at hcycle hancestor hreach
    exact transGen_below hcycle hancestor hreach

/-! ### The calls -/

/-- A call of `lsm_process_control`, where it is entered. -/
def issued (s : TreeState) : TreeAction → List (Nat × Nat)
  | .call _ =>
    match s.phase with
    | .controlling (target :: _) .entered _ => [(target.pid, target.instanceId)]
    | _ => []
  | _ => []

/-- The steps of the call itself, among everything else that happens. -/
def TreeAction.own : TreeAction → Bool
  | .kernel _ => false
  | _ => true

/-- How many steps a call has left at most. -/
def ControlPhase.left : ControlPhase → Nat
  | .entered => 6
  | .checked => 5
  | .opened _ => 4
  | .verified _ => 3
  | .unsupported => 2
  | .numeric => 1
  | .returned _ => 0

/-- Whom the tree call still has to call for. -/
def TreePhase.remaining : TreePhase → List (Nat × Nat)
  | .controlling targets .entered _ => called targets
  | .controlling targets _ _ => called targets.tail
  | _ => []

/-- How many steps the tree call has left at most, once it controls. -/
def TreePhase.left : TreePhase → Nat
  | .controlling targets call _ => 7 * targets.length + call.left
  | _ => 0

/-- It controls a target, or has returned. -/
def TreePhase.Controls : TreePhase → Prop
  | .controlling (_ :: _) _ _ => True
  | .returned _ => True
  | _ => False

theorem pidfdFailed_left (errno : Nat) : (pidfdFailed errno).left ≤ 2 := by
  rw [pidfdFailed]
  split
  · exact Nat.le_refl 2
  · exact Nat.zero_le 2

theorem lsmProcessControl_left {kernel : Kernel} {processId instanceId : Nat} {action : LsmProcessControl}
    {fault : Option Nat} {phase : ControlPhase} {r : ControlPhase × List Nat}
    (h : lsmProcessControl kernel processId instanceId action fault phase = some r) : r.1.left < phase.left := by
  cases phase with
  | returned errno => cases h
  | checked | verified task =>
    simp only [lsmProcessControl] at h
    split at h
    · rename_i errno
      cases h
      exact Nat.lt_of_le_of_lt (pidfdFailed_left errno) (by simp [ControlPhase.left])
    · split at h <;> cases h <;> simp [ControlPhase.left]
  | entered | opened task | unsupported | numeric =>
    simp only [lsmProcessControl] at h
    repeat' split at h
    all_goals cases h; simp [ControlPhase.left]

theorem lsmProcessControl_enabled (kernel : Kernel) (processId instanceId : Nat) (action : LsmProcessControl)
    (fault : Option Nat) {phase : ControlPhase} (h : ∀ errno, phase ≠ .returned errno) :
    (lsmProcessControl kernel processId instanceId action fault phase).isSome = true := by
  cases phase with
  | returned errno => exact absurd rfl (h errno)
  | entered | checked | opened task | verified task | unsupported | numeric =>
    simp only [lsmProcessControl]
    repeat' split
    all_goals rfl

/-- Where a tree call stands that has called for the first of an order. -/
structure InOrder (order log : List (Nat × Nat)) (phase : TreePhase) : Prop where
  controls : phase.Controls
  rest : log ++ phase.remaining = order

theorem InOrder.call {order log : List (Nat × Nat)} {s t : TreeState} {rootId rootInstanceId : Nat}
    {action : LsmProcessControl} (h : InOrder order log s.phase) {fault : Option Nat}
    (hstep : (controlTree rootId rootInstanceId action).step s (.call fault) = some t) :
    InOrder order (log ++ issued s (.call fault)) t.phase ∧ t.phase.left < s.phase.left := by
  obtain ⟨kernel, phase⟩ := s
  simp only [controlTree] at hstep
  split at hstep
  · rename_i target rest call saved
    obtain ⟨r, hr, rfl⟩ := Option.map_eq_some_iff.mp hstep
    have hleft := lsmProcessControl_left hr
    have hentered : r.1 ≠ .entered := by
      intro hsame
      rw [hsame] at hleft
      cases call <;> simp [ControlPhase.left] at hleft
    have hremaining : (TreePhase.controlling (target :: rest) r.1 saved).remaining = called rest := by
      cases hphase : r.1 <;> first | exact absurd hphase hentered | rfl
    refine ⟨⟨trivial, ?_⟩, Nat.add_lt_add_left hleft _⟩
    rw [hremaining, ← h.rest, List.append_assoc]
    cases call <;> rfl
  · cases hstep

theorem InOrder.next {order log : List (Nat × Nat)} {s t : TreeState} {rootId rootInstanceId : Nat}
    {action : LsmProcessControl} (h : InOrder order log s.phase)
    (hstep : (controlTree rootId rootInstanceId action).step s .next = some t) :
    InOrder order (log ++ issued s .next) t.phase ∧ t.phase.left < s.phase.left := by
  obtain ⟨kernel, phase⟩ := s
  simp only [controlTree] at hstep
  split at hstep
  · rename_i targets errno saved
    cases hstep
    have hrest := h.rest
    cases targets with
    | nil => exact absurd h.controls id
    | cons target rest =>
      simp only [issued, List.append_nil]
      cases rest with
      | nil => exact ⟨⟨trivial, hrest⟩, by simp [controlTreeNext, TreePhase.left]⟩
      | cons next rest =>
        refine ⟨⟨trivial, hrest⟩, ?_⟩
        simp only [controlTreeNext, List.tail_cons, TreePhase.left, ControlPhase.left, List.length_cons]
        omega
  · cases hstep

/-- What the steps from an order's beginning keep: the rest of the order is still to be
called for, and each step of the call itself brings it closer to its end. -/
theorem InOrder.step {order log : List (Nat × Nat)} {s t : TreeState} {rootId rootInstanceId : Nat}
    {action : LsmProcessControl} (h : InOrder order log s.phase) {a : TreeAction}
    (hstep : (controlTree rootId rootInstanceId action).step s a = some t) :
    InOrder order (log ++ issued s a) t.phase ∧ (if a.own then 1 else 0) + t.phase.left ≤ s.phase.left := by
  cases a with
  | kernel a =>
    obtain ⟨kernel, -, rfl⟩ := Option.map_eq_some_iff.mp hstep
    refine ⟨?_, Nat.le_of_eq (Nat.zero_add _)⟩
    rw [show issued s (.kernel a) = [] from rfl, List.append_nil]
    exact h
  | call fault =>
    obtain ⟨horder, hleft⟩ := h.call hstep
    exact ⟨horder, (Nat.one_add _).trans_le hleft⟩
  | next =>
    obtain ⟨horder, hleft⟩ := h.next hstep
    exact ⟨horder, (Nat.one_add _).trans_le hleft⟩
  | enter fault unopened | entry pid ppid fault | enumerationFails errno | endOfDirectory | recheck fault unallocated =>
    have hcontrols := h.controls
    obtain ⟨kernel, phase⟩ := s
    cases phase <;> first | exact absurd hcontrols id | cases hstep

theorem InOrder.run {order log : List (Nat × Nat)} {s t : TreeState} {rootId rootInstanceId : Nat}
    {action : LsmProcessControl} (h : InOrder order log s.phase) {actions : List TreeAction}
    (hrun : (controlTree rootId rootInstanceId action).run s actions = some t) :
    InOrder order (log ++ (controlTree rootId rootInstanceId action).trace issued s actions) t.phase ∧
      actions.countP TreeAction.own + t.phase.left ≤ s.phase.left := by
  induction actions generalizing s log with
  | nil =>
    cases hrun
    rw [Machine.trace, List.append_nil]
    exact ⟨h, Nat.le_of_eq (Nat.zero_add _)⟩
  | cons a rest ih =>
    obtain ⟨u, hu, hrest⟩ := Machine.run_cons _ hrun
    obtain ⟨hstep, hleft⟩ := h.step hu
    obtain ⟨horder, hsteps⟩ := ih hstep hrest
    rw [Machine.trace_cons _ _ hu, ← List.append_assoc]
    refine ⟨horder, ?_⟩
    rw [List.countP_cons]
    omega

/-- Until it has returned, whatever the kernel answers is taken. -/
theorem controlTree_enabled {s : TreeState} (h : s.phase.Controls) (rootId rootInstanceId : Nat)
    (action : LsmProcessControl) (hreturned : ∀ errno, s.phase ≠ .returned errno) :
    (∀ fault, ((controlTree rootId rootInstanceId action).step s (.call fault)).isSome = true) ∨
      ((controlTree rootId rootInstanceId action).step s .next).isSome = true := by
  obtain ⟨kernel, phase⟩ := s
  cases phase with
  | returned errno => exact absurd rfl (hreturned errno)
  | entered | enumerating items | enumerated items => exact absurd h id
  | controlling targets call saved =>
    cases targets with
    | nil => exact absurd h id
    | cons target rest =>
      by_cases hcall : ∃ errno, call = .returned errno
      · obtain ⟨errno, rfl⟩ := hcall
        exact Or.inr rfl
      · refine Or.inl fun fault => ?_
        simp only [controlTree, Option.isSome_map]
        exact lsmProcessControl_enabled _ _ _ _ _ fun errno hsame => hcall ⟨errno, hsame⟩

/-- The calls of a run from a snapshot on. -/
def treeCalls (rootId rootInstanceId : Nat) (action : LsmProcessControl) (kernel : Kernel) (items : List PidParent)
    (actions : List TreeAction) : List (Nat × Nat) :=
  (controlTree rootId rootInstanceId action).trace issued ⟨kernel, .enumerated items⟩ actions

theorem controlTreeRecheck_ok {kernel : Kernel} {rootId rootInstanceId : Nat} {fault : Option Nat}
    (hidentity : processIdentityPid kernel rootId rootInstanceId fault = .ok ()) (phase : TreePhase)
    (items : List PidParent) :
    controlTreeRecheck ⟨kernel, phase⟩ rootId rootInstanceId items fault none =
      .controlling (descendantItems items rootId ++ [⟨rootId, 0, rootInstanceId, 0⟩]) .entered 0 := by
  simp only [controlTreeRecheck, hidentity]

theorem controlTreeRecheck_refused {kernel : Kernel} {rootId rootInstanceId : Nat} {fault unallocated : Option Nat}
    (h : ¬ (processIdentityPid kernel rootId rootInstanceId fault = .ok () ∧ unallocated = none)) (phase : TreePhase)
    (items : List PidParent) :
    ∃ errno, controlTreeRecheck ⟨kernel, phase⟩ rootId rootInstanceId items fault unallocated = .returned errno := by
  simp only [controlTreeRecheck]
  cases hidentity : processIdentityPid kernel rootId rootInstanceId fault with
  | error errno => exact ⟨errno, rfl⟩
  | ok =>
    cases unallocated with
    | none => exact absurd ⟨hidentity, rfl⟩ h
    | some errno => exact ⟨errno, rfl⟩

theorem inOrder_targets (targets : List PidParent) (rootId rootInstanceId : Nat) :
    InOrder (called targets ++ [(rootId, rootInstanceId)]) []
      (.controlling (targets ++ [⟨rootId, 0, rootInstanceId, 0⟩]) .entered 0) := by
  refine ⟨?_, by simp only [List.nil_append, TreePhase.remaining, called, List.map_append, List.map_cons, List.map_nil]⟩
  cases targets <;> trivial

/-- Nothing is left to do only where it has returned. -/
theorem TreePhase.Controls.returned {phase : TreePhase} (h : phase.Controls) (hleft : phase.left = 0) :
    ∃ errno, phase = .returned errno := by
  cases phase with
  | returned errno => exact ⟨errno, rfl⟩
  | entered | enumerating items | enumerated items => exact absurd h id
  | controlling targets call saved =>
    cases targets with
    | nil => exact absurd h id
    | cons target rest =>
      simp only [TreePhase.left, List.length_cons] at hleft
      omega

/-- A tree call that has returned calls for nobody. -/
theorem returned_run {s t : TreeState} {errno rootId rootInstanceId : Nat} {action : LsmProcessControl}
    (hs : s.phase = .returned errno) {actions : List TreeAction}
    (hrun : (controlTree rootId rootInstanceId action).run s actions = some t) :
    (controlTree rootId rootInstanceId action).trace issued s actions = [] ∧ (∃ errno, t.phase = .returned errno) ∧
      actions.countP TreeAction.own = 0 := by
  have horder : InOrder [] [] s.phase := by
    rw [hs]
    exact ⟨trivial, rfl⟩
  obtain ⟨⟨hcontrols, hrest⟩, hleft⟩ := horder.run hrun
  rw [show s.phase.left = 0 by rw [hs]; rfl] at hleft
  refine ⟨?_, hcontrols.returned (by omega), by omega⟩
  exact (List.append_eq_nil_iff.mp hrest).1

/-- **A tree call calls for the root's descendants, each before its ancestors, and then for the
root.** `order` is fixed by the snapshot. After the second look at the root, the calls are
made in that order and are all made when it returns, which takes a bounded number of its
own steps. When the root is not itself any more, or there is no memory, none is made. -/
theorem control_tree_order {items : List PidParent} (hpids : (items.map (·.pid)).Nodup) (rootId : Nat) :
    ∃ order, TreeOrder items rootId order ∧
      ∀ kernel rootInstanceId action fault unallocated actions s,
        (controlTree rootId rootInstanceId action).run ⟨kernel, .enumerated items⟩
            (.recheck fault unallocated :: actions) =
          some s →
        let calls := treeCalls rootId rootInstanceId action kernel items (.recheck fault unallocated :: actions)
        if processIdentityPid kernel rootId rootInstanceId fault = .ok () ∧ unallocated = none then
          calls <+: order ++ [(rootId, rootInstanceId)] ∧
          (∀ errno, s.phase = .returned errno → calls = order ++ [(rootId, rootInstanceId)]) ∧
          ((∀ errno, s.phase ≠ .returned errno) →
            (∀ fault, ((controlTree rootId rootInstanceId action).step s (.call fault)).isSome = true) ∨
              ((controlTree rootId rootInstanceId action).step s .next).isSome = true) ∧
          actions.countP TreeAction.own ≤ 7 * (order.length + 1) + 6
        else calls = [] ∧ (∃ errno, s.phase = .returned errno) ∧ actions.countP TreeAction.own = 0 := by
  refine ⟨called (descendantItems items rootId), descendants_order hpids rootId, ?_⟩
  intro kernel rootInstanceId action fault unallocated actions s hrun
  obtain ⟨t, ht, hrun⟩ := Machine.run_cons _ hrun
  have hcalls : treeCalls rootId rootInstanceId action kernel items (.recheck fault unallocated :: actions) =
      (controlTree rootId rootInstanceId action).trace issued t actions := Machine.trace_cons _ _ ht
  rw [hcalls]
  cases ht
  split
  · rename_i hgo
    obtain ⟨hidentity, rfl⟩ := hgo
    rw [controlTreeRecheck_ok hidentity] at hrun ⊢
    obtain ⟨⟨hcontrols, hrest⟩, hleft⟩ :=
      (inOrder_targets (descendantItems items rootId) rootId rootInstanceId).run hrun
    rw [List.nil_append] at hrest
    refine ⟨⟨_, hrest⟩, ?_, controlTree_enabled hcontrols rootId rootInstanceId action, ?_⟩
    · intro errno hreturned
      rw [← hrest, hreturned]
      exact (List.append_nil _).symm
    · rw [called, List.length_map]
      simp only [TreePhase.left, ControlPhase.left, List.length_append, List.length_singleton] at hleft
      omega
  · rename_i hnot
    obtain ⟨errno, hreturned⟩ := controlTreeRecheck_refused hnot (.enumerated items) items
    exact returned_run hreturned hrun

/-! ### Roots on a cycle -/

/-- Three processes; the snapshot below is of their PPIDs. -/
def ringKernel : Kernel where
  tasks := [⟨5, 50⟩, ⟨6, 60⟩, ⟨7, 70⟩]
  current pid := if pid = 5 then some 0 else if pid = 6 then some 1 else if pid = 7 then some 2 else none

/-- 7 is the parent of 5, 5 of 6, and 6 of 7. -/
def ringItems : List PidParent := [⟨5, 7, 50, 0⟩, ⟨6, 5, 60, 0⟩, ⟨7, 6, 70, 0⟩]

def ringActions : List TreeAction :=
  [.recheck none none, .call none, .call none, .call none, .call none, .next, .call none, .call none, .call none,
    .call none, .next, .call none, .call none, .call none, .call none, .next]

theorem control_tree_order_ring :
    ∃ order, TreeOrder ringItems 5 order ∧
      ∃ s, (controlTree 5 50 .terminate).run ⟨ringKernel, .enumerated ringItems⟩ ringActions = some s ∧
        treeCalls 5 50 .terminate ringKernel ringItems ringActions <+: order ++ [(5, 50)] := by
  obtain ⟨order, horder, hruns⟩ := control_tree_order (show (ringItems.map (·.pid)).Nodup by decide) 5
  obtain ⟨s, hrun, -⟩ := (controlTree 5 50 .terminate).run_decided (p := fun _ => True)
    (show ((controlTree 5 50 .terminate).run ⟨ringKernel, .enumerated ringItems⟩ ringActions).map _ = some true by
      decide)
  have hcalls := hruns ringKernel 50 .terminate none none ringActions.tail s hrun
  dsimp only at hcalls
  rw [if_pos ⟨rfl, rfl⟩] at hcalls
  exact ⟨order, horder, s, hrun, hcalls.1⟩

/-- 7 is an ancestor of 6, by way of the root, and is called for before it. -/
theorem ring_order :
    (ringItems.map (·.pid)).Nodup ∧
    Relation.TransGen (Parent ringItems) 6 7 ∧ Relation.ReflTransGen (Parent ringItems) 7 5 ∧
    ((controlTree 5 50 .terminate).run ⟨ringKernel, .enumerated ringItems⟩ ringActions).isSome = true ∧
    treeCalls 5 50 .terminate ringKernel ringItems ringActions = [(7, 70), (6, 60), (5, 50)] := by
  have h65 : Parent ringItems 6 5 := ⟨⟨6, 5, 60, 0⟩, by decide, rfl, rfl⟩
  have h57 : Parent ringItems 5 7 := ⟨⟨5, 7, 50, 0⟩, by decide, rfl, rfl⟩
  have h76 : Parent ringItems 7 6 := ⟨⟨7, 6, 70, 0⟩, by decide, rfl, rfl⟩
  refine ⟨by decide, .tail (.single h65) h57, .head h76 (.single h65), by decide, by decide⟩

end SystemMonitor.Process
