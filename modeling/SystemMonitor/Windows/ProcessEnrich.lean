import Mathlib.Logic.Relation
import SystemMonitor.Process.Signals
import SystemMonitor.Windows.ProcessScan

/-! `lsm_process_enrich` on Windows.

The identity of a process is checked before and after it is queried, each time on a handle
of its own. A handle is of the process that had the PID when it was opened. So where both
checks find the process of the record, the handle in between was its own too
(`Call.Ordered.opened_own`); where the second does not, what was queried stays in the
record (`enrich_iff`). -/
namespace SystemMonitor.WindowsScan
open Lib
open Process (Kernel KernelAction Task ScanFlags)

/-! ### The call -/

/-- When a process is opened: for the first check, for the queries with full and then with limited
access, and for the second check. -/
inductive Instant where
  | first | full | limited | second

/-- What a call observes. A process is known by its place among those there have been, and its
creation time is its start time. -/
structure Call where
  kernel : Instant → Kernel
  /-- `OpenProcess` is refused. -/
  refused : Instant → Bool
  /-- `GetProcessTimes` fails. -/
  timesFail : Instant → Bool
  /-- `QueryFullProcessImageNameA` on a handle of the process. -/
  executable : Nat → Option (Chars 512)
  /-- `GetProcessHandleCount`. -/
  handleCount : Nat → Option Nat

def nativePid (id : Nat) : Option Nat := if id = 0 ∨ uintMax < id then none else some id

/-- The process that a handle is of. -/
def openProcess (call : Call) (instant : Instant) (pid : Nat) : Option Nat :=
  if call.refused instant then none else (call.kernel instant).current pid

def openProcessForQuery (call : Call) (pid : Nat) : Option Nat :=
  match openProcess call .full pid with
  | some process => some process
  | none => openProcess call .limited pid

/-- Zero where the times cannot be read. -/
def currentInstance (call : Call) (instant : Instant) (process : Nat) : Nat :=
  if call.timesFail instant then 0 else (((call.kernel instant).tasks[process]?).map (·.startTicks)).getD 0

def lsmProcessIdentityMatches (call : Call) (instant : Instant) (pid instanceId : Nat) : Bool :=
  match nativePid pid with
  | none => false
  | some native =>
    if instanceId = 0 then false
    else match openProcess call instant native with
      | none => false
      | some process => currentInstance call instant process != 0 && currentInstance call instant process == instanceId

def populateOptionalProcessFields (call : Call) (process : Nat) (info : LsmProcessInfo) (flags : ScanFlags) :
    LsmProcessInfo :=
  let info := if flags.executable then {info with executable := (call.executable process).getD .empty} else info
  if flags.handleCount then {info with handleCount := call.handleCount process} else info

def lsmProcessEnrich (call : Call) (pid : Nat) (process : LsmProcessInfo) (flags : ScanFlags) : Bool × LsmProcessInfo :=
  match nativePid pid with
  | none => (false, process)
  | some native =>
    if process.instanceId = 0 ∨ process.pid ≠ pid ∨ lsmProcessIdentityMatches call .first pid process.instanceId = false then
      (false, process)
    else match openProcessForQuery call native with
      | none => (false, process)
      | some handle =>
        let enriched := populateOptionalProcessFields call handle process flags
        (lsmProcessIdentityMatches call .second pid enriched.instanceId, enriched)

/-! ### Exits and reuse in between -/

/-- Processes exit, and others get their PIDs. -/
def Reaches : Kernel → Kernel → Prop :=
  Relation.ReflTransGen fun kernel next => ∃ a, kernel.Unique a ∧ kernel.step a = some next

structure Call.Ordered (call : Call) : Prop where
  valid : (call.kernel .first).Valid
  full : Reaches (call.kernel .first) (call.kernel .full)
  limited : Reaches (call.kernel .full) (call.kernel .limited)
  second : Reaches (call.kernel .limited) (call.kernel .second)

namespace Reaches
variable {kernel later : Kernel} (h : Reaches kernel later)
include h

theorem valid (hvalid : kernel.Valid) : later.Valid := by
  induction h with
  | refl => exact hvalid
  | tail _ hstep ih =>
    obtain ⟨a, hunique, hstep⟩ := hstep
    exact ih.step hunique hstep

theorem tasks {process : Nat} {t : Task} (ht : kernel.tasks[process]? = some t) : later.tasks[process]? = some t := by
  induction h with
  | refl => exact ht
  | tail _ hstep ih =>
    obtain ⟨a, -, hstep⟩ := hstep
    exact Kernel.step_tasks hstep ih

/-- A PID that is lost is lost for good. -/
theorem gone {pid process : Nat} {t : Task} (ht : kernel.tasks[process]? = some t)
    (hgone : kernel.current pid ≠ some process) : later.current pid ≠ some process := by
  induction h with
  | refl => exact hgone
  | tail hfirst hstep ih =>
    obtain ⟨a, -, hstep⟩ := hstep
    exact Kernel.step_gone hstep (tasks hfirst ht) ih

end Reaches

theorem nativePid_eq_some {id pid : Nat} (h : nativePid id = some pid) : pid = id := by
  rw [nativePid] at h
  split at h
  · cases h
  · exact (Option.some.inj h).symm

/-- What a check that succeeds has seen. -/
theorem identityMatches_eq_true {call : Call} {instant : Instant} {pid instanceId : Nat}
    (hvalid : (call.kernel instant).Valid) (h : lsmProcessIdentityMatches call instant pid instanceId = true) :
    ∃ process, (call.kernel instant).current pid = some process ∧
      (call.kernel instant).tasks[process]? = some ⟨pid, instanceId⟩ := by
  rw [lsmProcessIdentityMatches] at h
  split at h
  next => cases h
  next native hnative =>
    obtain rfl := nativePid_eq_some hnative
    split at h
    next => cases h
    next =>
      rw [openProcess] at h
      split at h
      next => cases h
      next process hopen =>
        split at hopen
        next => cases hopen
        next =>
          obtain ⟨t, ht, hpid⟩ := hvalid.own native process hopen
          obtain ⟨hsome, hsame⟩ := Bool.and_eq_true_iff.mp h
          have hcurrent : currentInstance call instant process = t.startTicks := by
            rw [currentInstance] at hsome ⊢
            split at hsome
            · cases hsome
            · rw [if_neg ‹_›, ht]
              rfl
          refine ⟨process, hopen, ?_⟩
          rw [ht, ← beq_iff_eq.mp hsame, hcurrent, ← hpid]

/-- Where both checks succeed, one process had the PID all along. -/
theorem Call.Ordered.same_throughout {call : Call} (h : call.Ordered) {pid instanceId : Nat}
    (hfirst : lsmProcessIdentityMatches call .first pid instanceId = true)
    (hsecond : lsmProcessIdentityMatches call .second pid instanceId = true) :
    ∃ process, (call.kernel .second).tasks[process]? = some ⟨pid, instanceId⟩ ∧
      (call.kernel .full).current pid = some process ∧ (call.kernel .limited).current pid = some process := by
  have hrest : Reaches (call.kernel .full) (call.kernel .second) := h.limited.trans h.second
  have hvalid := hrest.valid (h.full.valid h.valid)
  obtain ⟨process, -, ht⟩ := identityMatches_eq_true h.valid hfirst
  obtain ⟨other, hother, hs⟩ := identityMatches_eq_true hvalid hsecond
  have htfull := h.full.tasks ht
  have htlimited := h.limited.tasks htfull
  have htsecond := h.second.tasks htlimited
  obtain ⟨hlt, -⟩ := List.getElem?_eq_some_iff.mp htsecond
  obtain rfl : process = other := (List.getElem?_inj hlt hvalid.distinct).mp (htsecond.trans hs.symm)
  refine ⟨process, hs, ?_, ?_⟩
  · exact not_imp_not.mp (hrest.gone htfull) hother
  · exact not_imp_not.mp (h.second.gone htlimited) hother

theorem Call.Ordered.opened_own {call : Call} (h : call.Ordered) {pid instanceId handle : Nat}
    (hfirst : lsmProcessIdentityMatches call .first pid instanceId = true)
    (hsecond : lsmProcessIdentityMatches call .second pid instanceId = true)
    (hopen : openProcessForQuery call pid = some handle) :
    (call.kernel .second).tasks[handle]? = some ⟨pid, instanceId⟩ := by
  obtain ⟨process, ht, hfull, hlimited⟩ := h.same_throughout hfirst hsecond
  have hcurrent : ∀ instant, (call.kernel instant).current pid = some process →
      ∀ handle, openProcess call instant pid = some handle → handle = process := by
    intro instant hprocess handle hopen
    rw [openProcess] at hopen
    split at hopen
    · cases hopen
    · exact Option.some.inj (hopen.symm.trans hprocess)
  rw [openProcessForQuery] at hopen
  split at hopen
  next first hfirst =>
    cases hopen
    rw [hcurrent .full hfull handle hfirst]
    exact ht
  next =>
    rw [hcurrent .limited hlimited handle hopen]
    exact ht

/-! ### The record -/

/-- The fields are as they were before, or without a value. -/
structure Discarded (old new : LsmProcessInfo) : Prop where
  executable : new.executable = old.executable ∨ new.executable = .empty
  handleCount : new.handleCount = old.handleCount ∨ new.handleCount = none
  others : {new with executable := old.executable, handleCount := old.handleCount} = old

/-- What was asked for is of the record's process. -/
def Owned (call : Call) (flags : ScanFlags) (old new : LsmProcessInfo) : Prop :=
  ∃ process, (call.kernel .second).tasks[process]? = some ⟨old.pid, old.instanceId⟩ ∧
    new = {old with
      executable := if flags.executable then (call.executable process).getD .empty else old.executable
      handleCount := if flags.handleCount then call.handleCount process else old.handleCount}

/-- The law of one call. -/
structure Enriched (call : Call) (pid : Nat) (process : LsmProcessInfo) (flags : ScanFlags) : Prop where
  refused : (lsmProcessEnrich call pid process flags).1 = false →
    Discarded process (lsmProcessEnrich call pid process flags).2
  owned : (lsmProcessEnrich call pid process flags).1 = true →
    Owned call flags process (lsmProcessEnrich call pid process flags).2

/-- The process gives something that the record does not have. -/
def Differs (call : Call) (handle : Nat) (process : LsmProcessInfo) (flags : ScanFlags) : Prop :=
  (flags.executable = true ∧ ∃ path, call.executable handle = some path ∧ path ≠ .empty ∧ path ≠ process.executable) ∨
    flags.handleCount = true ∧ ∃ count, call.handleCount handle = some count ∧ process.handleCount ≠ some count

/-- The first check succeeds and the second does not, and something else was queried in between. -/
structure Leaks (call : Call) (pid : Nat) (process : LsmProcessInfo) (flags : ScanFlags) : Prop where
  own : process.pid = pid
  first : lsmProcessIdentityMatches call .first pid process.instanceId = true
  second : lsmProcessIdentityMatches call .second pid process.instanceId = false
  opened : ∃ handle, openProcessForQuery call pid = some handle ∧ Differs call handle process flags

theorem populateOptionalProcessFields_eq (call : Call) (handle : Nat) (info : LsmProcessInfo) (flags : ScanFlags) :
    populateOptionalProcessFields call handle info flags =
      {info with
        executable := if flags.executable then (call.executable handle).getD .empty else info.executable
        handleCount := if flags.handleCount then call.handleCount handle else info.handleCount} := by
  rw [populateOptionalProcessFields]
  cases flags.executable <;> cases flags.handleCount <;> rfl

theorem populateOptionalProcessFields_discarded (call : Call) (handle : Nat) (info : LsmProcessInfo) (flags : ScanFlags) :
    Discarded info (populateOptionalProcessFields call handle info flags) ↔ ¬ Differs call handle info flags := by
  rw [populateOptionalProcessFields_eq]
  constructor
  · rintro ⟨hexecutable, hcount, -⟩ (⟨hflag, path, hpath, hempty, hother⟩ | ⟨hflag, count, hread, hother⟩)
    · rw [hflag, if_pos rfl, hpath, Option.getD_some] at hexecutable
      exact hexecutable.elim hother hempty
    · rw [hflag, if_pos rfl, hread] at hcount
      exact hcount.elim (fun h => hother h.symm) nofun
  · intro h
    refine ⟨?_, ?_, rfl⟩
    · cases hflag : flags.executable with
      | false => exact .inl rfl
      | true =>
        dsimp only
        rw [if_pos rfl]
        cases hpath : call.executable handle with
        | none => exact .inr rfl
        | some path =>
          by_contra hneither
          obtain ⟨hother, hempty⟩ := not_or.mp hneither
          exact h (.inl ⟨hflag, path, hpath, hempty, hother⟩)
    · cases hflag : flags.handleCount with
      | false => exact .inl rfl
      | true =>
        dsimp only
        rw [if_pos rfl]
        cases hread : call.handleCount handle with
        | none => exact .inr rfl
        | some count =>
          by_contra hneither
          exact h (.inr ⟨hflag, count, hread, fun hsame => hneither (.inl hsame.symm)⟩)

/-- Where the first check does not succeed or nothing can be opened, nothing is written. -/
theorem lsmProcessEnrich_cases (call : Call) (pid : Nat) (process : LsmProcessInfo) (flags : ScanFlags) :
    (lsmProcessEnrich call pid process flags = (false, process) ∧
        (process.pid = pid → lsmProcessIdentityMatches call .first pid process.instanceId = true →
          openProcessForQuery call pid = none)) ∨
      ∃ handle, process.pid = pid ∧ lsmProcessIdentityMatches call .first pid process.instanceId = true ∧
        openProcessForQuery call pid = some handle ∧
        lsmProcessEnrich call pid process flags =
          (lsmProcessIdentityMatches call .second pid process.instanceId,
            populateOptionalProcessFields call handle process flags) := by
  rw [lsmProcessEnrich]
  cases hnative : nativePid pid with
  | none =>
    refine .inl ⟨rfl, fun _ hfirst => ?_⟩
    rw [lsmProcessIdentityMatches, hnative] at hfirst
    cases hfirst
  | some native =>
    obtain rfl := nativePid_eq_some hnative
    dsimp only
    split
    next hbad =>
      refine .inl ⟨rfl, fun hown hfirst => ?_⟩
      rcases hbad with hzero | hother | hfailed
      · rw [lsmProcessIdentityMatches, hnative] at hfirst
        dsimp only at hfirst
        rw [if_pos hzero] at hfirst
        cases hfirst
      · exact absurd hown hother
      · exact absurd (hfirst.symm.trans hfailed) (by decide)
    next hgood =>
      obtain ⟨-, hown, hfirst⟩ : process.instanceId ≠ 0 ∧ process.pid = native ∧
          lsmProcessIdentityMatches call .first native process.instanceId = true := by
        simpa only [not_or, Bool.not_eq_false, Classical.not_not, ne_eq] using hgood
      cases hopen : openProcessForQuery call native with
      | none => exact .inl ⟨rfl, fun _ _ => rfl⟩
      | some handle =>
        refine .inr ⟨handle, hown, hfirst, rfl, ?_⟩
        dsimp only
        rw [populateOptionalProcessFields_eq]

/-! ### A PID in use again -/

def ownKernel : Kernel where
  tasks := [⟨7, 90⟩]
  current pid := if pid = 7 then some 0 else none

def emptiedKernel : Kernel where
  tasks := [⟨7, 90⟩]
  current pid := if pid = 7 then none else ownKernel.current pid

/-- The PID is another process's. -/
def reusedKernel : Kernel where
  tasks := [⟨7, 90⟩, ⟨7, 200⟩]
  current pid := if pid = 7 then some 1 else emptiedKernel.current pid

theorem ownKernel_valid : ownKernel.Valid where
  own pid task h := by
    dsimp only [ownKernel] at h
    split at h
    next hpid =>
      cases h
      exact ⟨⟨7, 90⟩, rfl, hpid.symm⟩
    next => cases h
  distinct := List.nodup_singleton _

theorem reusedKernel_reached : Reaches ownKernel reusedKernel :=
  .tail (.single ⟨.exit 7, trivial, rfl⟩ : Reaches ownKernel emptiedKernel)
    ⟨.fork 7 200, (by decide : (⟨7, 200⟩ : Task) ∉ [⟨7, 90⟩]), rfl⟩

def otherImage : Chars 512 := .ofText (ascii "C:\\other.exe")

/-- The process exits behind the first check. -/
def reusedCall : Call where
  kernel
    | .first => ownKernel
    | .full | .limited | .second => reusedKernel
  refused _ := false
  timesFail _ := false
  executable process := if process = 1 then some otherImage else none
  handleCount _ := none

theorem reusedCall_ordered : reusedCall.Ordered where
  valid := ownKernel_valid
  full := reusedKernel_reached
  limited := .refl
  second := .refl

def ownRecord : LsmProcessInfo where
  pid := 7
  ppid := 1
  instanceId := 90
  name := .ofText (ascii "own.exe")
  threads := 1

/-- **The path of another process is left behind.** -/
theorem refused_keeps_other_path : reusedCall.Ordered ∧
    lsmProcessEnrich reusedCall 7 ownRecord {executable := true} = (false, {ownRecord with executable := otherImage}) ∧
    ¬ Enriched reusedCall 7 ownRecord {executable := true} := by
  have hresult : lsmProcessEnrich reusedCall 7 ownRecord {executable := true} =
      (false, {ownRecord with executable := otherImage}) := by rfl
  refine ⟨reusedCall_ordered, hresult, fun h => ?_⟩
  have hrefused := (h.refused (by rw [hresult])).executable
  rw [hresult] at hrefused
  exact absurd hrefused (by decide)

/-- **A refused call leaves nothing, and one that succeeds what is the process's own, exactly where it
does not leak.** -/
theorem enrich_iff {call : Call} (h : call.Ordered) (pid : Nat) (process : LsmProcessInfo) (flags : ScanFlags) :
    Enriched call pid process flags ↔ ¬ Leaks call pid process flags := by
  rcases lsmProcessEnrich_cases call pid process flags with ⟨hresult, hnone⟩ | ⟨handle, rfl, hfirst, hopen, hresult⟩
  · refine iff_of_true ⟨fun _ => ?_, fun htrue => ?_⟩ fun hleaks => ?_
    · rw [hresult]
      exact ⟨.inl rfl, .inl rfl, rfl⟩
    · rw [hresult] at htrue
      cases htrue
    · obtain ⟨handle, hopen, -⟩ := hleaks.opened
      rw [hnone hleaks.own hleaks.first] at hopen
      cases hopen
  constructor
  · intro henriched hleaks
    obtain ⟨other, hother, hdiffers⟩ := hleaks.opened
    obtain rfl : handle = other := Option.some.inj (hopen.symm.trans hother)
    have hrefused := henriched.refused (by rw [hresult]; exact hleaks.second)
    rw [hresult] at hrefused
    exact (populateOptionalProcessFields_discarded call handle process flags).mp hrefused hdiffers
  · intro hleaks
    refine ⟨fun hfalse => ?_, fun htrue => ?_⟩
    · rw [hresult] at hfalse ⊢
      refine (populateOptionalProcessFields_discarded call handle process flags).mpr fun hdiffers => ?_
      exact hleaks ⟨rfl, hfirst, hfalse, handle, hopen, hdiffers⟩
    · rw [hresult] at htrue ⊢
      exact ⟨handle, h.opened_own hfirst htrue hopen, populateOptionalProcessFields_eq call handle process flags⟩

theorem enrich_iff_reused : Enriched reusedCall 7 ownRecord {executable := true} ↔
    ¬ Leaks reusedCall 7 ownRecord {executable := true} :=
  enrich_iff reusedCall_ordered 7 ownRecord {executable := true}

end SystemMonitor.WindowsScan
