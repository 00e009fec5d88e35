import Mathlib.Data.List.TakeWhile
import SystemMonitor.Common
import SystemMonitor.Lib.Slots

/-! Efficiency mode: a nice value and an I/O priority, lowered and given back.

Enabling captures the two settings of a process in a table, once, and disabling
gives back what is there. Each of the five system calls may fail. The I/O priority
is given back only if the call that captured it also changed it, and a failed call
undoes its change on one of the two paths; `efficiency_reversible_iff` and
`efficiency_failed_unchanged_iff` say what that comes to. -/
namespace SystemMonitor.Process
open Lib

/-- `LSM_IOPRIO_VALUE(IOPRIO_CLASS_IDLE, 0)`. -/
def ioprioIdle : Nat := 3 * 2 ^ 13

/-- `LSM_IOPRIO_VALUE(IOPRIO_CLASS_BE, 4)`. -/
def ioprioBestEffort : Nat := 2 * 2 ^ 13 + 4

structure LsmEfficiencyRestoreState where
  pid : Nat
  instanceId : Nat
  originalNice : Int
  originalIoprio : Nat
  restoreIoprio : Bool
  deriving DecidableEq

/-- The two settings of a process, and the restore table, where `none` is a zeroed slot. -/
structure EfficiencyState where
  nice : Int
  ioprio : Nat
  efficiencyRestoreStates : List (Option LsmEfficiencyRestoreState)
  deriving DecidableEq

/-- Which of its system calls succeed for one call. -/
structure SystemCalls where
  /-- `process_identity_pid`. -/
  identity : Bool := true
  getpriority : Bool := true
  ioprioGet : Bool := true
  ioprioSet : Bool := true
  setpriority : Bool := true
  /-- The `ioprio_set` after a failed `setpriority`. -/
  compensates : Bool := true
  deriving DecidableEq

section
variable (pid instanceId : Nat)

def ofProcess (state : LsmEfficiencyRestoreState) : Bool := state.pid == pid && state.instanceId == instanceId

def efficiencyRestoreFind (states : List (Option LsmEfficiencyRestoreState)) : Option LsmEfficiencyRestoreState :=
  Slots.find (ofProcess pid instanceId) states

def efficiencyRestoreRemove (states : List (Option LsmEfficiencyRestoreState)) :
    List (Option LsmEfficiencyRestoreState) :=
  Slots.remove (ofProcess pid instanceId) states

/-- `efficiency_restore_reserve` and what is captured in a slot that it took; `none`
when the table is full. -/
def efficiencyRestoreReserve (captured : LsmEfficiencyRestoreState)
    (states : List (Option LsmEfficiencyRestoreState)) : Option (List (Option LsmEfficiencyRestoreState)) :=
  match efficiencyRestoreFind pid instanceId states with
  | some _ => some states
  | none => Slots.put captured states

def enableEfficiency (calls : SystemCalls) (s : EfficiencyState) : Bool × EfficiencyState :=
  if calls.getpriority then
    let originalIoprio := if calls.ioprioGet then s.ioprio else 0
    let alreadyCaptured := (efficiencyRestoreFind pid instanceId s.efficiencyRestoreStates).isSome
    match efficiencyRestoreReserve pid instanceId ⟨pid, instanceId, s.nice, originalIoprio, false⟩
      s.efficiencyRestoreStates with
    | none => (false, s)
    | some reserved =>
      let ioChanged := calls.ioprioGet && calls.ioprioSet
      let states :=
        if ioChanged && !alreadyCaptured
        then Slots.update (ofProcess pid instanceId) (fun state => {state with restoreIoprio := true}) reserved
        else reserved
      if calls.setpriority then (true, ⟨10, if ioChanged then ioprioIdle else s.ioprio, states⟩)
      else
        (false, ⟨s.nice, if ioChanged then if calls.compensates then originalIoprio else ioprioIdle else s.ioprio,
          if alreadyCaptured then states else efficiencyRestoreRemove pid instanceId states⟩)
  else (false, s)

/-- What is given back for a process without a slot. -/
def uncaptured : LsmEfficiencyRestoreState := ⟨pid, instanceId, 0, ioprioBestEffort, true⟩

/-- The slot of the process, or else the defaults. -/
def savedEfficiency (s : EfficiencyState) : LsmEfficiencyRestoreState :=
  (efficiencyRestoreFind pid instanceId s.efficiencyRestoreStates).getD (uncaptured pid instanceId)

def disableEfficiency (calls : SystemCalls) (s : EfficiencyState) : Bool × EfficiencyState :=
  let saved := savedEfficiency pid instanceId s
  if saved.restoreIoprio && !calls.ioprioSet then (false, s)
  else
    let ioprio := if saved.restoreIoprio then saved.originalIoprio else s.ioprio
    if calls.setpriority
    then (true, ⟨saved.originalNice, ioprio, efficiencyRestoreRemove pid instanceId s.efficiencyRestoreStates⟩)
    else (false, {s with ioprio})

def lsmProcessSetEfficiency (enabled : Bool) (calls : SystemCalls) (s : EfficiencyState) : Bool × EfficiencyState :=
  if !calls.identity || pid ≤ 1 then (false, s)
  else if enabled then enableEfficiency pid instanceId calls s
  else disableEfficiency pid instanceId calls s

/-- One enabling call after the other. -/
def enableRepeatedly (enabling : List SystemCalls) (s : EfficiencyState) : EfficiencyState :=
  enabling.foldl (fun s calls => (lsmProcessSetEfficiency pid instanceId true calls s).2) s

end

/-! ### One call -/

/-- The call gets as far as the table. -/
def SystemCalls.reaches (calls : SystemCalls) : Bool := calls.identity && calls.getpriority

def SystemCalls.setsIdle (calls : SystemCalls) : Bool := calls.ioprioGet && calls.ioprioSet

/-- The call returns true, if it finds a slot. -/
def SystemCalls.enables (calls : SystemCalls) : Bool := calls.reaches && calls.setpriority

/-- The call leaves an idle I/O priority behind, whether it returns true or not. -/
def SystemCalls.leavesIdle (calls : SystemCalls) : Bool :=
  calls.reaches && calls.setsIdle && (calls.setpriority || !calls.compensates)

/-- A slot is free. -/
def EfficiencyState.room (s : EfficiencyState) : Bool := s.efficiencyRestoreStates.any Option.isNone

section
variable {pid instanceId : Nat} {calls : SystemCalls} {s : EfficiencyState}

/-- What an enabling call comes to. -/
inductive Enabling (pid instanceId : Nat) (calls : SystemCalls) (s : EfficiencyState) :
    Bool × EfficiencyState → Prop where
  | ineffective (h : calls.reaches = false ∨
      efficiencyRestoreFind pid instanceId s.efficiencyRestoreStates = none ∧ s.room = false) :
    Enabling pid instanceId calls s (false, s)
  | refused (hset : calls.setpriority = false)
    (hslot : efficiencyRestoreFind pid instanceId s.efficiencyRestoreStates = none → s.room = true) :
    Enabling pid instanceId calls s (false, {s with ioprio := if calls.leavesIdle then ioprioIdle else s.ioprio})
  | captured (henables : calls.enables = true) (states : List (Option LsmEfficiencyRestoreState))
    (originalIoprio : Nat) (hroom : s.room = true)
    (hnone : efficiencyRestoreFind pid instanceId s.efficiencyRestoreStates = none)
    (horiginal : calls.setsIdle = true → originalIoprio = s.ioprio)
    (hfind : efficiencyRestoreFind pid instanceId states =
      some ⟨pid, instanceId, s.nice, originalIoprio, calls.setsIdle⟩)
    (hremove : efficiencyRestoreRemove pid instanceId states = s.efficiencyRestoreStates) :
    Enabling pid instanceId calls s (true, ⟨10, if calls.leavesIdle then ioprioIdle else s.ioprio, states⟩)
  | again (henables : calls.enables = true) (state : LsmEfficiencyRestoreState)
    (hfind : efficiencyRestoreFind pid instanceId s.efficiencyRestoreStates = some state) :
    Enabling pid instanceId calls s
      (true, ⟨10, if calls.leavesIdle then ioprioIdle else s.ioprio, s.efficiencyRestoreStates⟩)

theorem SystemCalls.leavesIdle_of_enables (h : calls.enables = true) : calls.leavesIdle = calls.setsIdle := by
  obtain ⟨hreaches, hset⟩ := Bool.and_eq_true_iff.mp h
  rw [leavesIdle, hreaches, hset, Bool.true_and, Bool.true_or, Bool.and_true]

/-- The I/O priority after a call whose `setpriority` failed. -/
theorem SystemCalls.refused_ioprio (hreaches : calls.reaches = true) (hset : calls.setpriority = false) (ioprio : Nat) :
    (if calls.setsIdle then if calls.compensates then if calls.ioprioGet then ioprio else 0 else ioprioIdle
      else ioprio) = if calls.leavesIdle then ioprioIdle else ioprio := by
  rw [leavesIdle, hreaches, hset, Bool.true_and, Bool.false_or]
  cases hidle : calls.setsIdle with
  | false => rfl
  | true =>
    have hget : calls.ioprioGet = true := (Bool.and_eq_true_iff.mp hidle).1
    rw [hget]
    cases calls.compensates <;> rfl

theorem ofProcess_restore (state : LsmEfficiencyRestoreState) (h : ofProcess pid instanceId state = true) :
    ofProcess pid instanceId {state with restoreIoprio := true} = true := h

theorem ofProcess_self (nice : Int) (ioprio : Nat) (restoreIoprio : Bool) :
    ofProcess pid instanceId ⟨pid, instanceId, nice, ioprio, restoreIoprio⟩ = true := by
  simp [ofProcess]

/-- A slot that was taken holds what was captured, and frees as it was. -/
theorem captured_slot {nice : Int} {ioprio : Nat} {reserved : List (Option LsmEfficiencyRestoreState)}
    (hfind : efficiencyRestoreFind pid instanceId s.efficiencyRestoreStates = none)
    (hput : Slots.put ⟨pid, instanceId, nice, ioprio, false⟩ s.efficiencyRestoreStates = some reserved)
    (ioChanged : Bool) :
    let states :=
      if ioChanged
      then Slots.update (ofProcess pid instanceId) (fun state => {state with restoreIoprio := true}) reserved
      else reserved
    efficiencyRestoreFind pid instanceId states = some ⟨pid, instanceId, nice, ioprio, ioChanged⟩ ∧
      efficiencyRestoreRemove pid instanceId states = s.efficiencyRestoreStates := by
  have hfound := Slots.find_put (ofProcess_self nice ioprio false) hfind hput
  have hremoved := Slots.remove_put (ofProcess_self nice ioprio false) hfind hput
  cases ioChanged with
  | false => exact ⟨hfound, hremoved⟩
  | true =>
    constructor
    · show Slots.find _ (Slots.update _ _ reserved) = _
      rw [Slots.find_update ofProcess_restore, hfound]
      rfl
    · show Slots.remove _ (Slots.update _ _ reserved) = _
      rw [Slots.remove_update ofProcess_restore, hremoved]

variable (instanceId calls s) in
theorem setEfficiency_enabling (hpid : 1 < pid) :
    Enabling pid instanceId calls s (lsmProcessSetEfficiency pid instanceId true calls s) := by
  unfold lsmProcessSetEfficiency
  cases hidentity : calls.identity with
  | false => exact .ineffective (Or.inl (by rw [SystemCalls.reaches, hidentity, Bool.false_and]))
  | true =>
    have hnot : ¬ pid ≤ 1 := Nat.not_le.mpr hpid
    simp only [Bool.not_true, Bool.false_or, decide_eq_false hnot, Bool.false_eq_true, if_false, if_true]
    unfold enableEfficiency
    cases hpriority : calls.getpriority with
    | false => exact .ineffective (Or.inl (by rw [SystemCalls.reaches, hpriority, Bool.and_false]))
    | true =>
      have hreaches : calls.reaches = true := by rw [SystemCalls.reaches, hidentity, hpriority, Bool.and_self]
      have hsets : (calls.ioprioGet && calls.ioprioSet) = calls.setsIdle := rfl
      simp only [if_true, efficiencyRestoreReserve, hsets]
      cases hfind : efficiencyRestoreFind pid instanceId s.efficiencyRestoreStates with
      | some state =>
        simp only [Option.isSome_some, Bool.not_true, Bool.and_false, Bool.false_eq_true, if_false, if_true]
        cases hset : calls.setpriority with
        | true =>
          have henables : calls.enables = true := by rw [SystemCalls.enables, hreaches, hset, Bool.and_self]
          rw [if_pos rfl, ← SystemCalls.leavesIdle_of_enables henables]
          exact .again henables state hfind
        | false =>
          rw [if_neg Bool.false_ne_true, SystemCalls.refused_ioprio hreaches hset]
          exact .refused hset fun hnone => absurd (hfind.symm.trans hnone) (Option.some_ne_none state)
      | none =>
        simp only [Option.isSome_none, Bool.not_false, Bool.and_true, Bool.false_eq_true, if_false]
        have hsome := Slots.put_isSome
          ⟨pid, instanceId, s.nice, if calls.ioprioGet then s.ioprio else 0, false⟩ s.efficiencyRestoreStates
        cases hput : Slots.put ⟨pid, instanceId, s.nice, if calls.ioprioGet then s.ioprio else 0, false⟩
          s.efficiencyRestoreStates with
        | none =>
          rw [hput] at hsome
          exact .ineffective (Or.inr ⟨hfind, hsome.symm⟩)
        | some reserved =>
          rw [hput] at hsome
          have hroom : s.room = true := hsome.symm
          obtain ⟨hfound, hremoved⟩ := captured_slot hfind hput calls.setsIdle
          dsimp only
          cases hset : calls.setpriority with
          | true =>
            have henables : calls.enables = true := by rw [SystemCalls.enables, hreaches, hset, Bool.and_self]
            have horiginal : calls.setsIdle = true → (if calls.ioprioGet then s.ioprio else 0) = s.ioprio := by
              intro hidle
              rw [if_pos (Bool.and_eq_true_iff.mp hidle).1]
            have hcaptured := Enabling.captured henables _ _ hroom hfind horiginal hfound hremoved
            rw [SystemCalls.leavesIdle_of_enables henables] at hcaptured
            exact hcaptured
          | false =>
            rw [if_neg Bool.false_ne_true, SystemCalls.refused_ioprio hreaches hset, hremoved]
            exact .refused hset fun _ => hroom

/-! ### Runs -/

/-- Calls that all fail leave the table as it was, and the nice value. -/
theorem enableRepeatedly_refused (hpid : 1 < pid)
    (hfind : efficiencyRestoreFind pid instanceId s.efficiencyRestoreStates = none) (hroom : s.room = true)
    (before : List SystemCalls) (hbefore : ∀ calls ∈ before, calls.enables = false) :
    enableRepeatedly pid instanceId before s =
      {s with ioprio := if before.any SystemCalls.leavesIdle then ioprioIdle else s.ioprio} := by
  induction before generalizing s with
  | nil => rfl
  | cons calls rest ih =>
    obtain ⟨hcalls, hrest⟩ := List.forall_mem_cons.mp hbefore
    have hstep : (lsmProcessSetEfficiency pid instanceId true calls s).2 =
        {s with ioprio := if calls.leavesIdle then ioprioIdle else s.ioprio} := by
      have hcases := setEfficiency_enabling instanceId calls s hpid
      generalize lsmProcessSetEfficiency pid instanceId true calls s = r at hcases
      cases hcases with
      | ineffective h =>
        rcases h with hreaches | ⟨-, hfull⟩
        · rw [SystemCalls.leavesIdle, hreaches, Bool.false_and, Bool.false_and, if_neg Bool.false_ne_true]
        · rw [hroom] at hfull
          cases hfull
      | refused hset hslot => rfl
      | captured henables => rw [hcalls] at henables; cases henables
      | again henables => rw [hcalls] at henables; cases henables
    show enableRepeatedly pid instanceId rest (lsmProcessSetEfficiency pid instanceId true calls s).2 = _
    rw [hstep, ih (s := {s with ioprio := if calls.leavesIdle then ioprioIdle else s.ioprio}) hfind hroom hrest,
      List.any_cons]
    cases calls.leavesIdle with
    | true => rw [Bool.true_or, if_pos rfl, ite_self]
    | false => rfl

/-- In a full table nothing is captured and nothing changed. -/
theorem enableRepeatedly_full (hpid : 1 < pid)
    (hfind : efficiencyRestoreFind pid instanceId s.efficiencyRestoreStates = none) (hroom : s.room = false)
    (enabling : List SystemCalls) : enableRepeatedly pid instanceId enabling s = s := by
  induction enabling with
  | nil => rfl
  | cons calls rest ih =>
    have hstep : (lsmProcessSetEfficiency pid instanceId true calls s).2 = s := by
      have hcases := setEfficiency_enabling instanceId calls s hpid
      generalize lsmProcessSetEfficiency pid instanceId true calls s = r at hcases
      cases hcases with
      | ineffective h => rfl
      | refused hset hslot =>
        rw [hslot hfind] at hroom
        cases hroom
      | captured henables states originalIoprio hfree =>
        rw [hfree] at hroom
        cases hroom
      | again henables state hsome =>
        rw [hfind] at hsome
        cases hsome
    show enableRepeatedly pid instanceId rest (lsmProcessSetEfficiency pid instanceId true calls s).2 = s
    rw [hstep]
    exact ih

/-- Once captured, the slot stays as it is. -/
theorem enableRepeatedly_captured (hpid : 1 < pid) {state : LsmEfficiencyRestoreState}
    (hfind : efficiencyRestoreFind pid instanceId s.efficiencyRestoreStates = some state) (later : List SystemCalls) :
    (enableRepeatedly pid instanceId later s).efficiencyRestoreStates = s.efficiencyRestoreStates ∧
      (enableRepeatedly pid instanceId later s).ioprio =
        if later.any SystemCalls.leavesIdle then ioprioIdle else s.ioprio := by
  induction later generalizing s with
  | nil => exact ⟨rfl, rfl⟩
  | cons calls rest ih =>
    have hstep : (lsmProcessSetEfficiency pid instanceId true calls s).2.efficiencyRestoreStates =
          s.efficiencyRestoreStates ∧
        (lsmProcessSetEfficiency pid instanceId true calls s).2.ioprio =
          if calls.leavesIdle then ioprioIdle else s.ioprio := by
      have hcases := setEfficiency_enabling instanceId calls s hpid
      generalize lsmProcessSetEfficiency pid instanceId true calls s = r at hcases
      cases hcases with
      | ineffective h =>
        rcases h with hreaches | ⟨hnone, -⟩
        · refine ⟨rfl, ?_⟩
          rw [SystemCalls.leavesIdle, hreaches, Bool.false_and, Bool.false_and, if_neg Bool.false_ne_true]
        · rw [hfind] at hnone
          cases hnone
      | refused hset hslot => exact ⟨rfl, rfl⟩
      | captured henables states originalIoprio hfree hnone =>
        rw [hfind] at hnone
        cases hnone
      | again henables state hsome => exact ⟨rfl, rfl⟩
    obtain ⟨hstates, hioprio⟩ := hstep
    show (enableRepeatedly pid instanceId rest
      (lsmProcessSetEfficiency pid instanceId true calls s).2).efficiencyRestoreStates
      = _ ∧ (enableRepeatedly pid instanceId rest (lsmProcessSetEfficiency pid instanceId true calls s).2).ioprio = _
    obtain ⟨hrestStates, hrestIoprio⟩ := ih (hstates ▸ hfind)
    refine ⟨hrestStates.trans hstates, ?_⟩
    rw [hrestIoprio, hioprio, List.any_cons]
    cases calls.leavesIdle with
    | true => rw [Bool.true_or, if_pos rfl, ite_self]
    | false => rfl

/-! ### Disabling -/

/-- The settings and the table after a disabling call that returns true. -/
def restoredEfficiency (pid instanceId : Nat) (s : EfficiencyState) : EfficiencyState :=
  let saved := savedEfficiency pid instanceId s
  ⟨saved.originalNice, if saved.restoreIoprio then saved.originalIoprio else s.ioprio,
    efficiencyRestoreRemove pid instanceId s.efficiencyRestoreStates⟩

theorem disableEfficiency_true (h : (disableEfficiency pid instanceId calls s).1 = true) :
    (disableEfficiency pid instanceId calls s).2 = restoredEfficiency pid instanceId s := by
  unfold disableEfficiency at h ⊢
  dsimp only at h ⊢
  split at h
  · cases h
  · rename_i hioprio
    rw [if_neg hioprio]
    split at h
    · rename_i hset
      rw [if_pos hset]
      rfl
    · cases h

theorem disableEfficiency_succeeds (s : EfficiencyState) :
    disableEfficiency pid instanceId {} s = (true, restoredEfficiency pid instanceId s) := by
  unfold disableEfficiency
  simp only [Bool.not_true, Bool.and_false, Bool.false_eq_true, if_false, if_true]
  rfl

/-- If the disabling call returns true, the settings are those of `s` and the slot is free. -/
def Reversible (pid instanceId : Nat) (enabling : List SystemCalls) (s : EfficiencyState) : Prop :=
  ∀ calls, (lsmProcessSetEfficiency pid instanceId false calls (enableRepeatedly pid instanceId enabling s)).1 = true →
    let t := (lsmProcessSetEfficiency pid instanceId false calls (enableRepeatedly pid instanceId enabling s)).2
    t.nice = s.nice ∧ t.ioprio = s.ioprio ∧ efficiencyRestoreFind pid instanceId t.efficiencyRestoreStates = none

theorem reversible_iff_restored (hpid : 1 < pid) (enabling : List SystemCalls) (s : EfficiencyState) :
    Reversible pid instanceId enabling s ↔
      let t := restoredEfficiency pid instanceId (enableRepeatedly pid instanceId enabling s)
      t.nice = s.nice ∧ t.ioprio = s.ioprio ∧ efficiencyRestoreFind pid instanceId t.efficiencyRestoreStates = none := by
  have hcall : ∀ calls u, lsmProcessSetEfficiency pid instanceId false calls u =
      if calls.identity then disableEfficiency pid instanceId calls u else (false, u) := by
    intro calls u
    unfold lsmProcessSetEfficiency
    cases calls.identity with
    | false => rfl
    | true =>
      simp only [Bool.not_true, Bool.false_or, decide_eq_false (Nat.not_le.mpr hpid), Bool.false_eq_true, if_false,
        if_true]
  constructor
  · intro h
    have hlast := h {}
    simp only [hcall, if_true, disableEfficiency_succeeds] at hlast
    exact hlast trivial
  · intro h calls hcalls
    rw [hcall] at hcalls ⊢
    split at hcalls
    · rename_i hidentity
      rw [if_pos hidentity, disableEfficiency_true hcalls]
      exact h
    · cases hcalls

/-- Whether the calls can be taken back: the first that returns true captured the
I/O priority it found and either changed it itself or is followed by none that does,
and no call before it left an idle one behind; a process that was never captured is
given the defaults. -/
def Recoverable (s : EfficiencyState) (enabling : List SystemCalls) : Prop :=
  match s.room, enabling.dropWhile fun calls => !calls.enables with
  | true, first :: later =>
    s.ioprio = ioprioIdle ∨
      ((∀ calls ∈ enabling.takeWhile fun calls => !calls.enables, calls.leavesIdle = false) ∧
        (first.setsIdle = true ∨ ∀ calls ∈ later, calls.leavesIdle = false))
  | _, _ => s.nice = 0 ∧ s.ioprio = ioprioBestEffort

/-- Without a slot the defaults are given. -/
theorem restored_uncaptured {u : EfficiencyState}
    (hfind : efficiencyRestoreFind pid instanceId u.efficiencyRestoreStates = none) :
    restoredEfficiency pid instanceId u = ⟨0, ioprioBestEffort, u.efficiencyRestoreStates⟩ := by
  have hsaved : savedEfficiency pid instanceId u = uncaptured pid instanceId := by
    rw [savedEfficiency, hfind, Option.getD_none]
  rw [restoredEfficiency, hsaved, efficiencyRestoreRemove, Slots.remove_of_find_none hfind]
  rfl

/-- The first call that returns true captures; what later calls do to the I/O
priority is only undone when this one is recorded to have changed it. -/
theorem restored_captured (hpid : 1 < pid)
    (hfind : efficiencyRestoreFind pid instanceId s.efficiencyRestoreStates = none) {first : SystemCalls}
    (hroom : s.room = true) (hfirst : first.enables = true) (later : List SystemCalls) :
    restoredEfficiency pid instanceId (enableRepeatedly pid instanceId (first :: later) s) =
      ⟨s.nice, if first.setsIdle = false ∧ later.any SystemCalls.leavesIdle = true then ioprioIdle else s.ioprio,
        s.efficiencyRestoreStates⟩ := by
  show restoredEfficiency pid instanceId
    (enableRepeatedly pid instanceId later (lsmProcessSetEfficiency pid instanceId true first s).2) = _
  have hcases := setEfficiency_enabling instanceId first s hpid
  generalize lsmProcessSetEfficiency pid instanceId true first s = r at hcases
  cases hcases with
  | ineffective h =>
    rcases h with hreaches | ⟨-, hfull⟩
    · rw [SystemCalls.enables, hreaches, Bool.false_and] at hfirst
      cases hfirst
    · rw [hroom] at hfull
      cases hfull
  | refused hset hslot =>
    rw [SystemCalls.enables, hset, Bool.and_false] at hfirst
    cases hfirst
  | captured henables states originalIoprio hfree hnone horiginal hfound hremove =>
    have hlater := enableRepeatedly_captured (s := ⟨10, if first.leavesIdle then ioprioIdle else s.ioprio, states⟩)
      hpid hfound later
    generalize enableRepeatedly pid instanceId later _ = u at hlater
    obtain ⟨hstates, hioprio⟩ := hlater
    have hsaved : savedEfficiency pid instanceId u = ⟨pid, instanceId, s.nice, originalIoprio, first.setsIdle⟩ := by
      rw [savedEfficiency, hstates, hfound, Option.getD_some]
    have hidle := SystemCalls.leavesIdle_of_enables hfirst
    rw [restoredEfficiency, hsaved, hstates, hremove]
    congr 1
    cases hsets : first.setsIdle with
    | true =>
      rw [if_pos rfl, horiginal hsets]
      exact (if_neg fun h => Bool.noConfusion h.1).symm
    | false =>
      rw [if_neg Bool.false_ne_true, hioprio, hidle, hsets, if_neg Bool.false_ne_true]
      simp only [true_and]
  | again henables state hsome =>
    rw [hfind] at hsome
    cases hsome

theorem any_leavesIdle_eq_false {enabling : List SystemCalls} :
    enabling.any SystemCalls.leavesIdle = false ↔ ∀ calls ∈ enabling, calls.leavesIdle = false := by
  simp [List.any_eq_false]

/-- **Efficiency mode is reversible exactly when the table tells what changed.**
However the system calls fail, a disabling call that returns true gives back both
settings and the slot if and only if the enabling calls before it are recoverable. -/
theorem efficiency_reversible_iff (pid instanceId : Nat) (enabling : List SystemCalls) (s : EfficiencyState)
    (hfree : efficiencyRestoreFind pid instanceId s.efficiencyRestoreStates = none) :
    Reversible pid instanceId enabling s ↔ pid ≤ 1 ∨ Recoverable s enabling := by
  by_cases hpid : pid ≤ 1
  · refine iff_of_true ?_ (Or.inl hpid)
    intro calls hcalls
    rw [lsmProcessSetEfficiency, decide_eq_true hpid, Bool.or_true, if_pos rfl] at hcalls
    cases hcalls
  have hlt : 1 < pid := Nat.not_le.mp hpid
  rw [reversible_iff_restored hlt, or_iff_right hpid, Recoverable]
  cases hroom : s.room with
  | false =>
    rw [enableRepeatedly_full hlt hfree hroom, restored_uncaptured hfree]
    exact ⟨fun h => ⟨h.1.symm, h.2.1.symm⟩, fun h => ⟨h.1.symm, h.2.symm, hfree⟩⟩
  | true =>
    have hbefore : ∀ calls ∈ enabling.takeWhile fun calls => !calls.enables, calls.enables = false := by
      intro calls hcalls
      simpa using List.mem_takeWhile_imp hcalls
    have hrefused := enableRepeatedly_refused hlt hfree hroom _ hbefore
    have hsplit := List.takeWhile_append_dropWhile (p := fun calls : SystemCalls => !calls.enables) (l := enabling)
    have hrun : enableRepeatedly pid instanceId enabling s =
        enableRepeatedly pid instanceId (enabling.dropWhile fun calls => !calls.enables)
          (enableRepeatedly pid instanceId (enabling.takeWhile fun calls => !calls.enables) s) := by
      conv_lhs => rw [← hsplit]
      exact List.foldl_append
    rw [hrun, hrefused]
    cases hrest : enabling.dropWhile fun calls => !calls.enables with
    | nil =>
      rw [show enableRepeatedly pid instanceId [] _ = _ from rfl, restored_uncaptured (by exact hfree)]
      exact ⟨fun h => ⟨h.1.symm, h.2.1.symm⟩, fun h => ⟨h.1.symm, h.2.symm, hfree⟩⟩
    | cons first later =>
      have hfirst : first.enables = true := by
        have hne : enabling.dropWhile (fun calls => !calls.enables) ≠ [] := by
          rw [hrest]
          exact List.cons_ne_nil first later
        have hhead := List.head_dropWhile_not (fun calls : SystemCalls => !calls.enables) hne
        simpa [hrest] using hhead
      rw [restored_captured hlt (by exact hfree) (by exact hroom) hfirst]
      dsimp only
      by_cases hidle : s.ioprio = ioprioIdle
      · refine iff_of_true ⟨rfl, ?_, hfree⟩ (Or.inl hidle)
        rw [hidle, ite_self, ite_self]
      · have hidle' : ioprioIdle ≠ s.ioprio := fun h => hidle h.symm
        rw [or_iff_right hidle, ← any_leavesIdle_eq_false, ← any_leavesIdle_eq_false]
        cases hstray : (enabling.takeWhile fun calls => !calls.enables).any SystemCalls.leavesIdle with
        | true => simp [hidle']
        | false => cases first.setsIdle <;> cases later.any SystemCalls.leavesIdle <;> simp [hidle', hfree]

/-! ### Failed calls -/

/-- A disabling call that has changed the I/O priority fails with the nice value. -/
def HalfRestored (pid instanceId : Nat) (enabled : Bool) (calls : SystemCalls) (s : EfficiencyState) : Prop :=
  enabled = false ∧ 1 < pid ∧ calls.identity = true ∧ calls.ioprioSet = true ∧ calls.setpriority = false ∧
    (savedEfficiency pid instanceId s).restoreIoprio = true ∧
    (savedEfficiency pid instanceId s).originalIoprio ≠ s.ioprio

/-- An enabling call that returns false changes nothing. -/
theorem enabling_unchanged (hcompensates : calls.compensates = true) (hpid : 1 < pid)
    (h : (lsmProcessSetEfficiency pid instanceId true calls s).1 = false) :
    (lsmProcessSetEfficiency pid instanceId true calls s).2 = s := by
  have hcases := setEfficiency_enabling instanceId calls s hpid
  generalize lsmProcessSetEfficiency pid instanceId true calls s = r at hcases h
  cases hcases with
  | ineffective _ => rfl
  | refused hset hslot =>
    rw [SystemCalls.leavesIdle, hset, hcompensates, Bool.not_true, Bool.or_self, Bool.and_false,
      if_neg Bool.false_ne_true]
  | captured henables => cases h
  | again henables => cases h

/-- **A failed change changes nothing, unless it was half restored.** Whatever fails
while the compensating `ioprio_set` succeeds, a call that returns false leaves the
settings and the table as they were if and only if it is not a disabling call whose
`setpriority` failed after its `ioprio_set`. -/
theorem efficiency_failed_unchanged_iff (pid instanceId : Nat) (enabled : Bool) (calls : SystemCalls)
    (s : EfficiencyState) (hcompensates : calls.compensates = true) :
    ((lsmProcessSetEfficiency pid instanceId enabled calls s).1 = false →
        (lsmProcessSetEfficiency pid instanceId enabled calls s).2 = s) ↔
      ¬ HalfRestored pid instanceId enabled calls s := by
  by_cases hpid : 1 < pid
  · cases enabled with
    | true => exact iff_of_true (enabling_unchanged hcompensates hpid) fun h => Bool.noConfusion h.1
    | false =>
      unfold lsmProcessSetEfficiency HalfRestored
      cases calls.identity with
      | false => exact iff_of_true (fun _ => rfl) fun h => Bool.noConfusion h.2.2.1
      | true =>
        simp only [Bool.not_true, Bool.false_or, decide_eq_false (Nat.not_le.mpr hpid), Bool.false_eq_true, if_false]
        unfold disableEfficiency
        dsimp only
        generalize savedEfficiency pid instanceId s = saved
        cases hset : calls.setpriority with
        | true =>
          refine iff_of_true (fun h => ?_) fun h => Bool.noConfusion h.2.2.2.2.1
          split at h
          · rename_i hrefused
            rw [if_pos hrefused]
          · cases h
        | false =>
          cases hrestore : saved.restoreIoprio with
          | false => exact iff_of_true (fun _ => rfl) fun h => Bool.noConfusion h.2.2.2.2.2.1
          | true =>
            cases hioprio : calls.ioprioSet with
            | false => exact iff_of_true (fun _ => rfl) fun h => Bool.noConfusion h.2.2.2.1
            | true =>
              have hstate : ({s with ioprio := saved.originalIoprio} : EfficiencyState) = s ↔
                  saved.originalIoprio = s.ioprio :=
                ⟨fun h => congrArg EfficiencyState.ioprio h, fun h => by rw [h]⟩
              simp [hpid, hstate]
  · refine iff_of_true (fun _ => ?_) fun h => hpid h.2.1
    rw [lsmProcessSetEfficiency, decide_eq_true (Nat.not_lt.mp hpid), Bool.or_true, if_pos rfl]

end

instance (pid instanceId : Nat) (enabled : Bool) (calls : SystemCalls) (s : EfficiencyState) :
    Decidable (HalfRestored pid instanceId enabled calls s) :=
  inferInstanceAs (Decidable (enabled = false ∧ 1 < pid ∧ calls.identity = true ∧ calls.ioprioSet = true ∧
    calls.setpriority = false ∧ (savedEfficiency pid instanceId s).restoreIoprio = true ∧
    (savedEfficiency pid instanceId s).originalIoprio ≠ s.ioprio))

/-- The second call changes what the first could not read. -/
theorem efficiency_io_kept : let s : EfficiencyState := ⟨5, ioprioBestEffort, List.replicate 1024 none⟩
    let t := lsmProcessSetEfficiency 7 90 false {} (enableRepeatedly 7 90 [{ioprioGet := false}, {}] s)
    t.1 = true ∧ t.2.nice = s.nice ∧ t.2.ioprio = ioprioIdle ∧ t.2.ioprio ≠ s.ioprio := by
  decide +kernel

theorem efficiency_reversible_partial :
    Reversible 7 90 [{setpriority := false}, {}, {ioprioSet := false}] ⟨5, ioprioBestEffort, List.replicate 1024 none⟩ :=
  (efficiency_reversible_iff 7 90 _ _ (by decide +kernel)).mpr
    (Or.inr (show _ ∨ _ from Or.inr ⟨by decide, Or.inl rfl⟩))

/-- The I/O priority is given back, the nice value is not, and the call returns false. -/
theorem efficiency_half_restored : let s : EfficiencyState := ⟨10, ioprioIdle, [some ⟨7, 90, 0, ioprioBestEffort, true⟩]⟩
    lsmProcessSetEfficiency 7 90 false {setpriority := false} s = (false, {s with ioprio := ioprioBestEffort}) ∧
      ¬ ((lsmProcessSetEfficiency 7 90 false {setpriority := false} s).1 = false →
        (lsmProcessSetEfficiency 7 90 false {setpriority := false} s).2 = s) := by
  decide

theorem efficiency_failed_unchanged_refused :
    let s : EfficiencyState := ⟨10, ioprioIdle, [some ⟨7, 90, 0, ioprioBestEffort, true⟩]⟩
    (lsmProcessSetEfficiency 7 90 false {ioprioSet := false} s).2 = s :=
  (efficiency_failed_unchanged_iff 7 90 false {ioprioSet := false} _ rfl).mpr (by decide) (by decide)

end SystemMonitor.Process
