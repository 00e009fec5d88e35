import SystemMonitor.Lib.CStrings
import SystemMonitor.Process.Scan

/-! Enriching one row from the files of its process.

The scan sees an enrichment as a whole (`Process.lsmProcessEnrich`); here it is read
file by file. A process may be gone and its PID in use again while the files are read,
so the identity is checked again at the end and what was read is cleared.
`enrich_refused_iff` says when nothing of it is left, `enrich_refines` that the scan's
view is this one. -/
namespace SystemMonitor.Process.Enrichment
open Lib CStrings

/-- What `infiltratr_read_text_file_ex` stored, and whether it returned `OK`. -/
structure TextRead (n : Nat) where
  ok : Bool
  stored : Chars n

/-- What is found below `/proc/<pid>`, and in the session files. -/
structure ProcFiles where
  /-- The target of `exe`; `none`: `readlink` failed. -/
  executable : Option (Chars 512)
  /-- The entries of `fd`; `none`: the directory was not read to its end. -/
  handles : Option Nat
  cgroup : TextRead 4096
  wchan : TextRead 64
  attrCurrent : TextRead 256
  smapsRollup : TextRead 16384
  /-- `/run/systemd/sessions/<session>`. -/
  sessions : Text → TextRead 4096

/-- What Common contributes: a number at the start of a text, and a checked product. -/
structure Library where
  parseU64Token : Text → Nat → Option (Nat × Text)
  u64MultiplyChecked : Nat → Nat → Option Nat

/-- The documented behaviour as functions. -/
def Library.documented : Library where
  parseU64Token t _ :=
    let digits := (t.dropWhile fun b => b == 32 || b == 9).takeWhile Decimal.isDigit
    ((Decimal.parse digits).filter (· ≤ uint64Max)).map fun value =>
      (value, (t.dropWhile fun b => b == 32 || b == 9).drop digits.length)
  u64MultiplyChecked a b := if a * b ≤ uint64Max then some (a * b) else none

/-! ### Reading -/

def isNewline (b : UInt8) : Bool := b == 10

def readProcessExecutable (files : ProcFiles) (process : LsmProcessInfo) : LsmProcessInfo :=
  {process with executable := files.executable.getD .empty}

def countProcessFds (files : ProcFiles) (process : LsmProcessInfo) : LsmProcessInfo :=
  {process with handleCount := files.handles}

def hierarchyZero : Text := ascii "0::"

/-- The group of the first line of hierarchy zero; `none`: there is none, or it does not fit. -/
def unifiedGroup (cgroup : TextRead 4096) : Option (Chars 512) :=
  if cgroup.ok then
    match (tokens isNewline cgroup.stored.text).find? fun line => hierarchyZero.isPrefixOf line with
    | none => none
    | some line =>
      let group := if line.drop 3 = [] then [47] else line.drop 3
      if group.length < 512 then some (.ofText group) else none
  else none

def readProcessCgroup (files : ProcFiles) (process : LsmProcessInfo) : LsmProcessInfo :=
  {process with
    cgroupPath := (unifiedGroup files.cgroup).getD .empty
    cgroupV2 := (unifiedGroup files.cgroup).isSome}

/-- Without the line end, and without blanks at either end. -/
def trimKernelText (t : Text) : Text :=
  ((t.reverse.dropWhile fun b => b == 10 || b == 13 || b == 32 || b == 9).reverse).dropWhile fun b => b == 32 || b == 9

def readProcessTextField {n : Nat} (read : TextRead n) : Chars n :=
  if read.ok then .ofText (trimKernelText read.stored.text) else read.stored

def privateDirty : Text := ascii "Private_Dirty:"

/-- The value of the first line that carries one, in bytes. -/
def writableMemory (lib : Library) (smapsRollup : TextRead 16384) : Option Nat :=
  if smapsRollup.ok then
    ((smapsRollup.stored.text.splitOnP isNewline).findSome? fun line =>
      if privateDirty.isPrefixOf line then lib.parseU64Token (line.drop privateDirty.length) 10 else none).bind
      fun value => lib.u64MultiplyChecked value.1 1024
  else none

def sessionPrefix : Text := ascii "/session-"
def scopeSuffix : Text := ascii ".scope"

/-- The session that a unified cgroup path names. -/
def cgroupSession (cgroupPath : Text) : Option Text :=
  match strstr sessionPrefix cgroupPath with
  | none => none
  | some found =>
    let session := found.drop sessionPrefix.length
    match strstr scopeSuffix session with
    | none => none
    | some scope =>
      let name := session.take (session.length - scope.length)
      if name ≠ [] ∧ name.length < 64 then some name else none

def asciiIsAlnum (b : UInt8) : Bool := (48 ≤ b && b ≤ 57) || (65 ≤ b && b ≤ 90) || (97 ≤ b && b ≤ 122)

def safeSessionIdentifier (session : Text) : Bool :=
  session ≠ [] && session.all fun b => asciiIsAlnum b || b == 45 || b == 95

def seatKey : Text := ascii "SEAT="
def userKey : Text := ascii "USER="

/-- One line of a session file. -/
def sessionLine (technical : TechnicalInfo) (line : Text) : TechnicalInfo :=
  if seatKey.isPrefixOf line then {technical with seat := .ofText (line.drop 5)}
  else if userKey.isPrefixOf line then {technical with owner := .ofText (line.drop 5)}
  else technical

def deriveSystemdProcessIdentity (files : ProcFiles) (cgroupPath : Chars 512) (user : Chars 64)
    (technical : TechnicalInfo) : TechnicalInfo :=
  if cgroupPath = .empty then technical
  else
    let last := afterLast 47 cgroupPath.text
    let named :=
      {technical with
        unit := if last ≠ [] ∧ last.length < 128 then .ofText last else technical.unit
        session := ((cgroupSession cgroupPath.text).map .ofText).getD technical.session
        owner := if user ≠ .empty then user else technical.owner}
    let read := files.sessions named.session.text
    if safeSessionIdentifier named.session.text && read.ok
    then (tokens isNewline read.stored.text).foldl sessionLine named
    else named

/-- A wait channel of `0` is none. -/
def waitingChannel (read : TextRead 64) : Chars 64 :=
  if (readProcessTextField read).text = [48] then .empty else readProcessTextField read

def readProcessTechnical (lib : Library) (files : ProcFiles) (process : LsmProcessInfo) : LsmProcessInfo :=
  let writable := writableMemory lib files.smapsRollup
  let read :=
    {process.technical with
      waitingChannel := waitingChannel files.wchan
      securityContext := readProcessTextField files.attrCurrent
      writableMemoryBytes := writable.getD process.technical.writableMemoryBytes
      writableMemoryAvailable := writable.isSome || process.technical.writableMemoryAvailable}
  {process with technical := deriveSystemdProcessIdentity files process.cgroupPath process.user read}

/-! ### One row -/

def collect (lib : Library) (files : ProcFiles) (process : LsmProcessInfo) (flags : ScanFlags) : LsmProcessInfo :=
  let process := if flags.executable then readProcessExecutable files process else process
  let process := if flags.handleCount then countProcessFds files process else process
  let process :=
    if flags.cgroup || (flags.technical && process.cgroupPath = .empty) then readProcessCgroup files process else process
  if flags.technical then readProcessTechnical lib files process else process

/-- `lsm_process_enrich`, with the two answers of `process_identity_pid`; the second
is given after the files were read. -/
def lsmProcessEnrich (lib : Library) (files : ProcFiles) (processId : Nat) (before after : Bool)
    (process : LsmProcessInfo) (flags : ScanFlags) : Bool × LsmProcessInfo :=
  if process.pid ≠ processId || !before then (false, process)
  else if after then (true, collect lib files process flags)
  else (false, enrichClear (collect lib files process flags) flags)

section
variable (lib : Library) (files : ProcFiles)

theorem ite_executable (c : Bool) (process : LsmProcessInfo) :
    (if c then readProcessExecutable files process else process) =
      {process with executable := if c then files.executable.getD .empty else process.executable} := by
  cases c <;> rfl

theorem ite_handleCount (c : Bool) (process : LsmProcessInfo) :
    (if c then countProcessFds files process else process) =
      {process with handleCount := if c then files.handles else process.handleCount} := by
  cases c <;> rfl

theorem ite_cgroup (c : Bool) (process : LsmProcessInfo) :
    (if c then readProcessCgroup files process else process) =
      {process with
        cgroupPath := if c then (unifiedGroup files.cgroup).getD .empty else process.cgroupPath
        cgroupV2 := if c then (unifiedGroup files.cgroup).isSome else process.cgroupV2} := by
  cases c <;> rfl

theorem ite_technical (c : Bool) (process : LsmProcessInfo) :
    (if c then readProcessTechnical lib files process else process) =
      {process with
        technical := if c then (readProcessTechnical lib files process).technical else process.technical} := by
  cases c <;> rfl

/-- Whether the cgroup is read. -/
def readsCgroup (process : LsmProcessInfo) (flags : ScanFlags) : Bool :=
  flags.cgroup || (flags.technical && process.cgroupPath = .empty)

/-- The cgroup path that the technical fields are derived from. -/
def collectedCgroup (process : LsmProcessInfo) (flags : ScanFlags) : Chars 512 :=
  if readsCgroup process flags then (unifiedGroup files.cgroup).getD .empty else process.cgroupPath

/-- The fields that are collected; all others stay. -/
theorem collect_eq (process : LsmProcessInfo) (flags : ScanFlags) :
    collect lib files process flags =
      {process with
        executable := if flags.executable then files.executable.getD .empty else process.executable
        handleCount := if flags.handleCount then files.handles else process.handleCount
        cgroupPath := collectedCgroup files process flags
        cgroupV2 := if readsCgroup process flags then (unifiedGroup files.cgroup).isSome else process.cgroupV2
        technical :=
          if flags.technical
          then (readProcessTechnical lib files {process with cgroupPath := collectedCgroup files process flags}).technical
          else process.technical} := by
  simp only [collect, ite_executable, ite_handleCount, ite_cgroup, ite_technical]
  rfl

/-- The fields are as they were before, or without a value. -/
structure Discarded (old new : LsmProcessInfo) : Prop where
  executable : new.executable = old.executable ∨ new.executable = .empty
  handleCount : new.handleCount = old.handleCount ∨ new.handleCount = none
  cgroupPath : new.cgroupPath = old.cgroupPath ∨ new.cgroupPath = .empty
  cgroupV2 : new.cgroupV2 = old.cgroupV2 ∨ new.cgroupV2 = false
  technical : new.technical = old.technical ∨ new.technical = {}
  others : {new with
    executable := old.executable
    handleCount := old.handleCount
    cgroupPath := old.cgroupPath
    cgroupV2 := old.cgroupV2
    technical := old.technical} = old

/-- A cgroup path that was read on behalf of the technical fields alone. -/
def Leaks (files : ProcFiles) (process : LsmProcessInfo) (flags : ScanFlags) : Prop :=
  flags.technical = true ∧ flags.cgroup = false ∧ process.cgroupPath = .empty ∧
    (unifiedGroup files.cgroup).isSome = true

theorem unifiedGroup_ne_empty {cgroup : TextRead 4096} {group : Chars 512} (h : unifiedGroup cgroup = some group) :
    group ≠ .empty := by
  unfold unifiedGroup at h
  split at h
  · split at h
    · cases h
    · rename_i line hline
      have hmem := List.mem_of_find?_eq_some hline
      have hnul : 0 ∉ line := fun hb => cgroup.stored.nulFree ((mem_tokens hmem).2 0 hb).1
      have hnamed : (if line.drop 3 = [] then [47] else line.drop 3) ≠ [] ∧
          0 ∉ (if line.drop 3 = [] then [47] else line.drop 3) := by
        by_cases hroot : line.drop 3 = []
        · rw [if_pos hroot]
          decide
        · rw [if_neg hroot]
          exact ⟨hroot, fun hb => hnul (List.mem_of_mem_drop hb)⟩
      dsimp only at h
      generalize (if line.drop 3 = [] then [47] else line.drop 3) = named at h hnamed
      split at h
      · rename_i hfits
        cases h
        intro hempty
        have htext : (Chars.ofText named : Chars 512).text = named :=
          Chars.ofText_text hnamed.2 (Nat.le_sub_one_of_lt hfits)
        rw [hempty] at htext
        exact hnamed.1 htext.symm
      · cases h
  · cases h

theorem readsCgroup_of_unflagged {process : LsmProcessInfo} {flags : ScanFlags} (hcgroup : flags.cgroup = false) :
    readsCgroup process flags = true ↔ flags.technical = true ∧ process.cgroupPath = .empty := by
  simp [readsCgroup, hcgroup]

/-- **A refused enrichment leaks nothing but a cgroup path.** When the identity check
after the collection fails, every field has its old value or none, if and only if no
cgroup path was read for the technical fields while the flags did not ask for it. -/
theorem enrich_refused_iff (process : LsmProcessInfo) (flags : ScanFlags) :
    Discarded process (lsmProcessEnrich lib files process.pid true false process flags).2 ↔
      ¬ Leaks files process flags := by
  have hresult : (lsmProcessEnrich lib files process.pid true false process flags).2 =
      enrichClear (collect lib files process flags) flags := by
    simp [lsmProcessEnrich]
  rw [hresult, collect_eq]
  constructor
  · intro h hleaks
    obtain ⟨htechnical, hcgroup, hempty, hsome⟩ := hleaks
    obtain ⟨group, hgroup⟩ := Option.isSome_iff_exists.mp hsome
    have hkept := h.cgroupPath
    simp only [enrichClear, hcgroup, collectedCgroup, readsCgroup, htechnical, hempty, hgroup] at hkept
    simp only [Bool.false_eq_true, if_false, Bool.false_or, Bool.true_and, decide_true, if_true, Option.getD_some,
      or_self] at hkept
    exact unifiedGroup_ne_empty hgroup hkept
  · intro hleaks
    have hunread (hcgroup : flags.cgroup = false) (hreads : readsCgroup process flags = true) :
        unifiedGroup files.cgroup = none := by
      obtain ⟨htechnical, hempty⟩ := (readsCgroup_of_unflagged hcgroup).mp hreads
      cases hgroup : unifiedGroup files.cgroup with
      | none => rfl
      | some group => exact absurd ⟨htechnical, hcgroup, hempty, by rw [hgroup]; rfl⟩ hleaks
    refine ⟨?_, ?_, ?_, ?_, ?_, rfl⟩
    · cases hexecutable : flags.executable with
      | true => exact Or.inr (by simp only [enrichClear, hexecutable, if_true])
      | false => exact Or.inl (by simp only [enrichClear, hexecutable, Bool.false_eq_true, if_false])
    · cases hhandles : flags.handleCount with
      | true => exact Or.inr (by simp only [enrichClear, hhandles, if_true])
      | false => exact Or.inl (by simp only [enrichClear, hhandles, Bool.false_eq_true, if_false])
    · cases hcgroup : flags.cgroup with
      | true => exact Or.inr (by simp only [enrichClear, hcgroup, if_true])
      | false =>
        simp only [enrichClear, hcgroup, Bool.false_eq_true, if_false, collectedCgroup]
        cases hreads : readsCgroup process flags with
        | true => exact Or.inr (by rw [if_pos rfl, hunread hcgroup hreads]; rfl)
        | false => exact Or.inl (if_neg Bool.false_ne_true)
    · cases hcgroup : flags.cgroup with
      | true => exact Or.inr (by simp only [enrichClear, hcgroup, if_true])
      | false =>
        simp only [enrichClear, hcgroup, Bool.false_eq_true, if_false]
        cases hreads : readsCgroup process flags with
        | true => exact Or.inr (by rw [if_pos rfl, hunread hcgroup hreads]; rfl)
        | false => exact Or.inl (if_neg Bool.false_ne_true)
    · cases htechnical : flags.technical with
      | true => exact Or.inr (by simp only [enrichClear, htechnical, if_true])
      | false => exact Or.inl (by simp only [enrichClear, htechnical, Bool.false_eq_true, if_false])

/-- What a scan sees of the files, for rows without technical fields. -/
def toReads (reads : ProcReads) : ProcReads :=
  {reads with
    executable := files.executable.getD .empty
    cgroupPath := (unifiedGroup files.cgroup).getD .empty
    cgroupV2 := (unifiedGroup files.cgroup).isSome
    descriptors := files.handles
    technical := fun cgroupPath user =>
      (readProcessTechnical lib files {pid := 0, cgroupPath, user}).technical}

/-- **The scan's enrichment is this one**, on rows that have no technical fields yet. -/
theorem enrich_refines (reads : ProcReads) {process : LsmProcessInfo} (htechnical : process.technical = {})
    (flags : ScanFlags) :
    lsmProcessEnrich lib files process.pid (identityConfirmed process.instanceId reads.rereadBefore)
        (identityConfirmed process.instanceId reads.rereadAfter) process flags =
      (Process.lsmProcessEnrich (toReads lib files reads) process flags).swap := by
  have hcollect : collect lib files process flags = enrichCollect (toReads lib files reads) process flags := by
    rw [collect_eq, enrichCollect]
    simp only [readProcessTechnical, htechnical]
    rfl
  unfold lsmProcessEnrich Process.lsmProcessEnrich
  have hbefore : (toReads lib files reads).rereadBefore = reads.rereadBefore := rfl
  have hafter : (toReads lib files reads).rereadAfter = reads.rereadAfter := rfl
  rw [hbefore, hafter, hcollect]
  cases identityConfirmed process.instanceId reads.rereadBefore with
  | false => simp
  | true => cases identityConfirmed process.instanceId reads.rereadAfter <;> simp

end

/-- A process that is only known by its cgroup. -/
def groupedFiles : ProcFiles where
  executable := none
  handles := none
  cgroup := ⟨true, .ofText (ascii "0::/user.slice\n")⟩
  wchan := ⟨false, .empty⟩
  attrCurrent := ⟨false, .empty⟩
  smapsRollup := ⟨false, .empty⟩
  sessions _ := ⟨false, .empty⟩

/-- The technical fields alone leave the path of the process that was read. -/
theorem enrich_leaks_cgroup : let process : LsmProcessInfo := {pid := 7, instanceId := 90}
    let refused := lsmProcessEnrich .documented groupedFiles 7 true false process {technical := true}
    refused.1 = false ∧ refused.2.cgroupPath.text = ascii "/user.slice" ∧ refused.2.cgroupPath ≠ process.cgroupPath ∧
      refused.2.cgroupPath ≠ .empty ∧ refused.2.cgroupV2 = true := by
  decide

end SystemMonitor.Process.Enrichment
