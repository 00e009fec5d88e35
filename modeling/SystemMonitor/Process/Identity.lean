import SystemMonitor.Process.Rollback

/-! Which process a retained value was collected from.

A sample is kept per PID, and a PID can be handed to another process between two
scans. `Isolated` says that a published row holds only what was collected from
its own instance. It does not follow from the code alone: the start ticks of a
sample are overwritten by every scan, while a text or the GPU counters are
overwritten only by a scan that collects them, so a scan that does not leaves
the earlier instance's values under the new instance's start ticks
(`stale_executable`). It does follow for every history in which a scan that
meets a reused PID replaces all that its sample holds (`rows_isolated`). -/
namespace SystemMonitor.Process
open Lib

/-! ### Observations -/

/-- What a scan read from one process. -/
structure Observation where
  scan : ScanInput
  reads : ProcReads
  stat : LinuxProcessStat

/-- The observation is of this PID and instance, in one of the scans. -/
def Observation.Of (o : Observation) (scans : List ScanInput) (pid instanceId : Nat) : Prop :=
  o.scan ∈ scans ∧ (∃ alloc, DirEntry.process pid o.reads alloc ∈ o.scan.entries) ∧
    o.reads.stat = some o.stat ∧ o.stat.startTicks = instanceId

/-- What enriching the observed process gives: its cgroup, or nothing when its
identity could not be confirmed. -/
def Observation.GivesCgroup (o : Observation) (path : Chars 512) (v2 : Bool) : Prop :=
  (path = o.reads.cgroupPath ∧ v2 = o.reads.cgroupV2) ∨
  ((identityConfirmed o.stat.startTicks o.reads.rereadBefore &&
    identityConfirmed o.stat.startTicks o.reads.rereadAfter) = false ∧ path = .empty ∧ v2 = false)

/-- Counters read from the instance, possibly held against earlier ones of it. -/
inductive GpuOf (scans : List ScanInput) (pid instanceId : Nat) : LsmProcessGpuSnapshot → Prop
  | read {o : Observation} {gpu : LsmProcessGpuSnapshot} (h : o.Of scans pid instanceId)
      (hgpu : o.reads.gpu = some gpu) : GpuOf scans pid instanceId gpu
  | held {current previous : LsmProcessGpuSnapshot} (hcurrent : GpuOf scans pid instanceId current)
      (hprevious : GpuOf scans pid instanceId previous) :
      GpuOf scans pid instanceId (lsmProcessGpuNormalise current previous)

/-- GPU fields computed from counters of the instance only. -/
inductive GpuInfoOf (scans : List ScanInput) (pid instanceId : Nat) : GpuInfo → Prop
  | unread {o : Observation} (h : o.Of scans pid instanceId) (hgpu : o.reads.gpu = none) :
      GpuInfoOf scans pid instanceId {}
  | first {o : Observation} {gpu : LsmProcessGpuSnapshot} (h : o.Of scans pid instanceId)
      (hgpu : o.reads.gpu = some gpu) : GpuInfoOf scans pid instanceId (gpuInfo gpu none)
  | again {o : Observation} {gpu previous : LsmProcessGpuSnapshot} {seconds : ℚ} (h : o.Of scans pid instanceId)
      (hgpu : o.reads.gpu = some gpu) (hprevious : GpuOf scans pid instanceId previous) :
      GpuInfoOf scans pid instanceId (gpuInfo gpu
        (lsmProcessGpuCalculateEngine (lsmProcessGpuNormalise gpu previous) previous seconds))

/-- All that a row shows was collected from its own instance. -/
structure Isolated (lib : Arithmetic) (scans : List ScanInput) (input : ScanInput) (row : LsmProcessInfo) : Prop where
  command : ∃ o : Observation, o.Of scans row.pid row.instanceId ∧
    row.command = readProcessCommand o.stat.name o.reads.cmdline
  executable : input.flags.executable = true → ∃ o : Observation, o.Of scans row.pid row.instanceId ∧
    row.executable = o.reads.executable
  cgroup : input.flags.cgroup = true → ∃ o : Observation, o.Of scans row.pid row.instanceId ∧
    o.GivesCgroup row.cgroupPath row.cgroupV2
  gpu : input.flags.gpu = true → GpuInfoOf scans row.pid row.instanceId row.gpu
  cpu : row.cpuPercent ≠ 0 → ∃ (previous current : Observation) (totalDelta : Nat),
    previous.Of scans row.pid row.instanceId ∧ current.Of scans row.pid row.instanceId ∧
    row.cpuPercent = lsmProcessCpuTotalPercent lib (current.stat.cpuTicks - previous.stat.cpuTicks) totalDelta
  io : row.ioRateAvailable = true ∨ row.readBytesPerSec ≠ 0 ∨ row.writeBytesPerSec ≠ 0 →
    ∃ (previous : Observation) (read write : Nat), previous.Of scans row.pid row.instanceId ∧
      previous.reads.readBytes = some read ∧ previous.reads.writeBytes = some write ∧
      row.readBytesPerSec =
        (lib.u64CounterRate row.readBytes read 1 (input.sampledAt - previous.scan.sampledAt)).getD 0 ∧
      row.writeBytesPerSec =
        (lib.u64CounterRate row.writeBytes write 1 (input.sampledAt - previous.scan.sampledAt)).getD 0

/-! ### What a sample holds -/

/-- A retained text, if there is one, satisfies `P`. -/
def RetainedText.Holds {n : Nat} (r : RetainedText n) (P : Chars n → Prop) : Prop :=
  ∀ string, r.value = some string → P string.text

/-- All that a sample retains was collected from the instance it names. -/
structure Belongs (scans : List ScanInput) (x : PreviousProcessSample) : Prop where
  visited : x.startTicks ≠ 0 → ∃ o : Observation, o.Of scans x.pid x.startTicks ∧
    o.stat.cpuTicks = x.cpuTicks ∧ o.scan.sampledAt = x.sampledAt ∧
    (x.ioAvailable = true → o.reads.readBytes = some x.readBytes ∧ o.reads.writeBytes = some x.writeBytes)
  command : x.command.Holds fun text => ∃ o : Observation, o.Of scans x.pid x.startTicks ∧
    text = readProcessCommand o.stat.name o.reads.cmdline
  executable : x.executable.Holds fun text => ∃ o : Observation, o.Of scans x.pid x.startTicks ∧
    text = o.reads.executable
  cgroup : x.cgroup.Holds fun text => ∃ o : Observation, o.Of scans x.pid x.startTicks ∧
    o.GivesCgroup text x.cgroupV2
  snapshot : x.gpu.snapshotValid = true → GpuOf scans x.pid x.startTicks x.gpu.gpu
  info : 0 < x.gpu.sampledAt → GpuInfoOf scans x.pid x.startTicks x.gpu.info

theorem Belongs.new (scans : List ScanInput) (pid : Nat) : Belongs scans {pid := pid} where
  visited h := absurd rfl h
  command _ h := nomatch h
  executable _ h := nomatch h
  cgroup _ h := nomatch h
  snapshot h := nomatch h
  info h := absurd h (lt_irrefl 0)

/-- Later scans only add observations. -/
theorem Observation.Of.mono {o : Observation} {scans more : List ScanInput} (hsub : scans ⊆ more) {pid instanceId : Nat}
    (h : o.Of scans pid instanceId) : o.Of more pid instanceId := ⟨hsub h.1, h.2⟩

theorem GpuOf.mono {scans more : List ScanInput} (hsub : scans ⊆ more) {pid instanceId : Nat}
    {gpu : LsmProcessGpuSnapshot} (h : GpuOf scans pid instanceId gpu) : GpuOf more pid instanceId gpu := by
  induction h with
  | read h hgpu => exact .read (h.mono hsub) hgpu
  | held _ _ ihcurrent ihprevious => exact .held ihcurrent ihprevious

theorem GpuInfoOf.mono {scans more : List ScanInput} (hsub : scans ⊆ more) {pid instanceId : Nat} {info : GpuInfo}
    (h : GpuInfoOf scans pid instanceId info) : GpuInfoOf more pid instanceId info := by
  cases h with
  | unread h hgpu => exact .unread (h.mono hsub) hgpu
  | first h hgpu => exact .first (h.mono hsub) hgpu
  | again h hgpu hprevious => exact .again (h.mono hsub) hgpu (hprevious.mono hsub)

theorem Belongs.mono {scans more : List ScanInput} (hsub : scans ⊆ more) {x : PreviousProcessSample}
    (h : Belongs scans x) : Belongs more x where
  visited hx := by
    obtain ⟨o, ho, hrest⟩ := h.visited hx
    exact ⟨o, ho.mono hsub, hrest⟩
  command string hs := by
    obtain ⟨o, ho, htext⟩ := h.command string hs
    exact ⟨o, ho.mono hsub, htext⟩
  executable string hs := by
    obtain ⟨o, ho, htext⟩ := h.executable string hs
    exact ⟨o, ho.mono hsub, htext⟩
  cgroup string hs := by
    obtain ⟨o, ho, htext⟩ := h.cgroup string hs
    exact ⟨o, ho.mono hsub, htext⟩
  snapshot hx := (h.snapshot hx).mono hsub
  info hx := (h.info hx).mono hsub

/-! ### One visit -/

theorem RetainedText.serve_eq_some {n : Nat} {r : RetainedText n} {same : Bool} {now : ℚ} {text : Chars n}
    (h : r.serve same now = some text) : same = true ∧ ∃ string, r.value = some string ∧ string.text = text := by
  unfold RetainedText.serve at h
  cases hvalue : r.value with
  | none =>
    rw [hvalue] at h
    cases h
  | some string =>
    rw [hvalue] at h
    simp only [Option.ite_none_right_eq_some, Option.some.injEq] at h
    exact ⟨h.1.1, string, rfl, h.2⟩

section
variable {n : Nat} {r : RetainedText n} {P : Chars n → Prop} {same duplicated : Bool} {now : ℚ} {text : Chars n}

theorem RetainedText.Holds.store (hkeep : duplicated = false → r.Holds P) (htext : P text) (heap : Heap) :
    (r.store duplicated now text heap).1.Holds P := by
  cases duplicated with
  | false => exact hkeep rfl
  | true =>
    intro string hs
    obtain rfl : ⟨heap.next, text⟩ = string := by simpa [RetainedText.store] using hs
    exact htext

/-- What is shown and what is retained after a refresh. -/
theorem RetainedText.Holds.refresh (hsame : same = true → r.Holds P) (hkeep : duplicated = false → r.Holds P)
    (htext : P text) (heap : Heap) : (r.refresh same now text duplicated heap).2.1.Holds P := by
  unfold RetainedText.refresh
  cases hserve : r.serve same now with
  | none => exact .store hkeep htext heap
  | some served => exact hsame (RetainedText.serve_eq_some hserve).1

theorem RetainedText.refresh_shows (hsame : same = true → r.Holds P) (htext : P text) (heap : Heap) :
    P (r.refresh same now text duplicated heap).1 := by
  unfold RetainedText.refresh
  cases hserve : r.serve same now with
  | none => exact htext
  | some served =>
    obtain ⟨hs, string, hvalue, rfl⟩ := RetainedText.serve_eq_some hserve
    exact hsame hs string hvalue

end

/-- An enrichment that is asked for the cgroup gives the observed one. -/
theorem lsmProcessEnrich_cgroup (o : Observation) (row : LsmProcessInfo) (flags : ScanFlags)
    (hinstance : row.instanceId = o.stat.startTicks) (hpath : row.cgroupPath = .empty) (hv2 : row.cgroupV2 = false)
    (hflag : flags.cgroup = true) :
    o.GivesCgroup (lsmProcessEnrich o.reads row flags).1.cgroupPath
      (lsmProcessEnrich o.reads row flags).1.cgroupV2 := by
  unfold lsmProcessEnrich
  rw [hinstance]
  cases hbefore : identityConfirmed o.stat.startTicks o.reads.rereadBefore with
  | false => exact Or.inr ⟨by rw [hbefore, Bool.false_and], hpath, hv2⟩
  | true =>
    cases hafter : identityConfirmed o.stat.startTicks o.reads.rereadAfter with
    | false =>
      refine Or.inr ⟨by rw [hafter, Bool.and_false], ?_, ?_⟩ <;> simp [enrichClear, hflag]
    | true => exact Or.inl ⟨by simp [enrichCollect, hflag], by simp [enrichCollect, hflag]⟩

/-- One that is not asked for it leaves it alone, or reads it for the technical fields. -/
theorem lsmProcessEnrich_other (reads : ProcReads) (row : LsmProcessInfo) (flags : ScanFlags)
    (hflag : flags.cgroup = false) :
    ((lsmProcessEnrich reads row flags).1.cgroupPath = row.cgroupPath ∧
      (lsmProcessEnrich reads row flags).1.cgroupV2 = row.cgroupV2) ∨
    ((lsmProcessEnrich reads row flags).1.cgroupPath = reads.cgroupPath ∧
      (lsmProcessEnrich reads row flags).1.cgroupV2 = reads.cgroupV2) := by
  have hcollect : ((enrichCollect reads row flags).cgroupPath = row.cgroupPath ∧
        (enrichCollect reads row flags).cgroupV2 = row.cgroupV2) ∨
      ((enrichCollect reads row flags).cgroupPath = reads.cgroupPath ∧
        (enrichCollect reads row flags).cgroupV2 = reads.cgroupV2) := by
    by_cases hread : (flags.technical && decide (row.cgroupPath = .empty)) = true
    · exact Or.inr (by simp [enrichCollect, hflag, hread])
    · exact Or.inl (by simp [enrichCollect, hflag, hread])
  simp only [lsmProcessEnrich]
  split
  · exact Or.inl ⟨rfl, rfl⟩
  · split
    · exact hcollect
    · simpa [enrichClear, hflag] using hcollect

section
variable {lib : Arithmetic} {ctx : ScanContext} {scans : List ScanInput} {o : Observation} {pid : Nat}
  {sample : PreviousProcessSample}

theorem Belongs.same_command (hb : Belongs scans sample) (hpid : sample.pid = pid) {instanceId : Nat}
    (hsame : sample.startTicks = instanceId) : sample.command.Holds fun text =>
      ∃ o : Observation, o.Of scans pid instanceId ∧ text = readProcessCommand o.stat.name o.reads.cmdline := by
  subst hpid hsame
  exact hb.command

theorem Belongs.same_executable (hb : Belongs scans sample) (hpid : sample.pid = pid) {instanceId : Nat}
    (hsame : sample.startTicks = instanceId) : sample.executable.Holds fun text =>
      ∃ o : Observation, o.Of scans pid instanceId ∧ text = o.reads.executable := by
  subst hpid hsame
  exact hb.executable

/-- The cgroup a row shows, when it is asked for. -/
theorem enrichRow_cgroup (hb : Belongs scans sample) (hpid : sample.pid = pid)
    (ho : o.Of scans pid o.stat.startTicks) (row : LsmProcessInfo)
    (hinstance : row.instanceId = o.stat.startTicks) (hpath : row.cgroupPath = .empty) (hv2 : row.cgroupV2 = false)
    (hflag : ctx.flags.cgroup = true) :
    ∃ o' : Observation, o'.Of scans pid o.stat.startTicks ∧
      o'.GivesCgroup (enrichRow ctx o.reads sample row).cgroupPath (enrichRow ctx o.reads sample row).cgroupV2 := by
  simp only [enrichRow]
  cases hserved : cgroupServed ctx sample row.instanceId with
  | none =>
    have hwanted : (enrichFlags ctx sample row.instanceId).cgroup = true := by
      simp [enrichFlags, hflag, hserved]
    have hany : (enrichFlags ctx sample row.instanceId).any = true := by simp [ScanFlags.any, hwanted]
    rw [if_pos hany]
    refine ⟨o, ho, lsmProcessEnrich_cgroup o _ _ hinstance ?_ ?_ hwanted⟩
    · simp [serveCgroup, hserved, hpath]
    · simp [serveCgroup, hserved, hv2]
  | some text =>
    have hskip : (enrichFlags ctx sample row.instanceId).cgroup = false := by
      simp [enrichFlags, hserved]
    rw [cgroupServed, if_pos hflag] at hserved
    obtain ⟨hsame, string, hvalue, htext⟩ := RetainedText.serve_eq_some hserved
    have hstart := ((sameProcess_iff _ _).mp hsame).1.trans hinstance
    obtain ⟨o', ho', hgives⟩ := hb.cgroup string hvalue
    rw [hpid, hstart] at ho'
    have hrow : (serveCgroup ctx sample row).cgroupPath = string.text ∧
        (serveCgroup ctx sample row).cgroupV2 = sample.cgroupV2 := by
      simp [serveCgroup, cgroupServed, hflag, hserved, htext]
    by_cases hany : (enrichFlags ctx sample row.instanceId).any = true
    · rw [if_pos hany]
      rcases lsmProcessEnrich_other o.reads (serveCgroup ctx sample row) _ hskip with ⟨hp, hv⟩ | ⟨hp, hv⟩
      · exact ⟨o', ho', by rwa [hp, hv, hrow.1, hrow.2]⟩
      · exact ⟨o, ho, Or.inl ⟨hp, hv⟩⟩
    · rw [if_neg hany]
      exact ⟨o', ho', by rwa [hrow.1, hrow.2]⟩

/-- The GPU state a due collection leaves. -/
theorem collectGpu_belongs (hb : Belongs scans sample) (hpid : sample.pid = pid)
    (ho : o.Of scans pid o.stat.startTicks) :
    let gpu := collectGpu ctx sample (sameProcess sample o.stat.startTicks) o.reads.gpu
    (gpu.snapshotValid = true → GpuOf scans pid o.stat.startTicks gpu.gpu) ∧
      GpuInfoOf scans pid o.stat.startTicks gpu.info := by
  intro gpu
  cases hread : o.reads.gpu with
  | none =>
    simp only [gpu, collectGpu, hread]
    refine ⟨?_, .unread ho hread⟩
    intro h
    cases h
  | some collected =>
    simp only [gpu, collectGpu, hread]
    by_cases hbaseline : (sameProcess sample o.stat.startTicks && sample.gpu.snapshotValid) = true
    · obtain ⟨hsame, hvalid⟩ := Bool.and_eq_true_iff.mp hbaseline
      have hprevious := hb.snapshot hvalid
      rw [hpid, ((sameProcess_iff _ _).mp hsame).1] at hprevious
      simp only [hbaseline, if_true]
      exact ⟨fun _ => .held (.read ho hread) hprevious, .again ho hread hprevious⟩
    · simp only [hbaseline, Bool.false_eq_true, if_false]
      exact ⟨fun _ => .read ho hread, .first ho hread⟩

variable (ctx) in
/-- What a scan that looks at the GPU shows and retains. -/
theorem refreshGpu_belongs (hb : Belongs scans sample) (hpid : sample.pid = pid)
    (ho : o.Of scans pid o.stat.startTicks) :
    let gpu := refreshGpu ctx sample o.stat.startTicks o.reads.gpu
    (gpu.snapshotValid = true → GpuOf scans pid o.stat.startTicks gpu.gpu) ∧
      GpuInfoOf scans pid o.stat.startTicks gpu.info := by
  intro gpu
  simp only [gpu, refreshGpu]
  by_cases hdue : gpuDue ctx sample (sameProcess sample o.stat.startTicks) = true
  · rw [if_pos hdue]
    exact collectGpu_belongs hb hpid ho
  · rw [if_neg hdue]
    simp only [gpuDue, Bool.or_eq_true, Bool.not_eq_true', decide_eq_true_eq, not_or, Bool.not_eq_false,
      not_le] at hdue
    have hstart := ((sameProcess_iff _ _).mp hdue.1.1.1).1
    have hinfo := hb.info hdue.1.1.2
    refine ⟨?_, by rwa [hpid, hstart] at hinfo⟩
    intro hvalid
    have hsnapshot := hb.snapshot hvalid
    rwa [hpid, hstart] at hsnapshot

/-- The scan replaces all that the sample holds. -/
def Replaces (flags : ScanFlags) (alloc : Allocations) (x : PreviousProcessSample) : Prop :=
  (x.command.value = none ∨ alloc.command = true) ∧
  (x.executable.value = none ∨ flags.executable = true ∧ alloc.executable = true) ∧
  (x.cgroup.value = none ∨ flags.cgroup = true ∧ alloc.cgroup = true) ∧
  (flags.gpu = true ∨ x.gpu.sampledAt ≤ 0 ∧ x.gpu.snapshotValid = false)

theorem RetainedText.holds_of_none {n : Nat} {r : RetainedText n} (h : r.value = none) (P : Chars n → Prop) :
    r.Holds P := fun string hs => absurd (h ▸ hs) (by simp)

variable (lib ctx pid) in
/-- The totals a visit retains are those it read. -/
theorem baseRow_io (reads : ProcReads) (stat : LinuxProcessStat)
    (h : (baseRow lib ctx pid stat reads).ioTotalsAvailable = true) :
    reads.readBytes = some (baseRow lib ctx pid stat reads).readBytes ∧
      reads.writeBytes = some (baseRow lib ctx pid stat reads).writeBytes := by
  obtain ⟨hread, hwrite⟩ := Bool.and_eq_true_iff.mp h
  obtain ⟨read, hread⟩ := Option.isSome_iff_exists.mp hread
  obtain ⟨write, hwrite⟩ := Option.isSome_iff_exists.mp hwrite
  simp [baseRow, hread, hwrite]

/-- The cgroup a visit retains. -/
theorem storeCgroup_belongs (hb : Belongs scans sample) (hpid : sample.pid = pid)
    (ho : o.Of scans pid o.stat.startTicks) (alloc : Allocations) (row : LsmProcessInfo)
    (hinstance : row.instanceId = o.stat.startTicks) (hpath : row.cgroupPath = .empty) (hv2 : row.cgroupV2 = false)
    (hkeep : sample.startTicks = o.stat.startTicks ∨
      sample.cgroup.value = none ∨ ctx.flags.cgroup = true ∧ alloc.cgroup = true) (heap : Heap) :
    (storeCgroup ctx alloc sample (enrichRow ctx o.reads sample row) heap).1.Holds fun text =>
      ∃ o' : Observation, o'.Of scans pid o.stat.startTicks ∧
        o'.GivesCgroup text (storeCgroup ctx alloc sample (enrichRow ctx o.reads sample row) heap).2.1 := by
  have hsame (hstart : sample.startTicks = o.stat.startTicks) : sample.cgroup.Holds fun text =>
      ∃ o' : Observation, o'.Of scans pid o.stat.startTicks ∧ o'.GivesCgroup text sample.cgroupV2 := by
    have hheld := hb.cgroup
    rwa [hpid, hstart] at hheld
  have hid := (enrichRow_pid ctx o.reads sample row).2.trans hinstance
  simp only [storeCgroup, hid]
  cases hwanted : (enrichFlags ctx sample o.stat.startTicks).cgroup with
  | false =>
    show sample.cgroup.Holds _
    rcases hkeep with hstart | hnone | ⟨hflag, -⟩
    · exact hsame hstart
    · exact RetainedText.holds_of_none hnone _
    · -- The flag is set and nothing is left to enrich: the path was served.
      obtain ⟨text, hserved⟩ : ∃ text, cgroupServed ctx sample o.stat.startTicks = some text := by
        apply Option.isSome_iff_exists.mp
        simpa [enrichFlags, hflag] using hwanted
      rw [cgroupServed, if_pos hflag] at hserved
      exact hsame ((sameProcess_iff _ _).mp (RetainedText.serve_eq_some hserved).1).1
  | true =>
    have hflag : ctx.flags.cgroup = true := (Bool.and_eq_true_iff.mp hwanted).1
    cases halloc : alloc.cgroup with
    | false =>
      show sample.cgroup.Holds _
      rcases hkeep with hstart | hnone | ⟨-, htrue⟩
      · exact hsame hstart
      · exact RetainedText.holds_of_none hnone _
      · rw [halloc] at htrue
        cases htrue
    | true =>
      intro string hs
      obtain rfl := Option.some_inj.mp hs
      exact enrichRow_cgroup hb hpid ho row hinstance hpath hv2 hflag

variable (ctx) in
/-- The GPU state a visit retains. -/
theorem visitGpu_belongs (hb : Belongs scans sample) (hpid : sample.pid = pid)
    (ho : o.Of scans pid o.stat.startTicks)
    (hkeep : sample.startTicks = o.stat.startTicks ∨
      ctx.flags.gpu = true ∨ sample.gpu.sampledAt ≤ 0 ∧ sample.gpu.snapshotValid = false) :
    ((visitGpu ctx o.stat o.reads sample).snapshotValid = true →
      GpuOf scans pid o.stat.startTicks (visitGpu ctx o.stat o.reads sample).gpu) ∧
    (0 < (visitGpu ctx o.stat o.reads sample).sampledAt →
      GpuInfoOf scans pid o.stat.startTicks (visitGpu ctx o.stat o.reads sample).info) := by
  unfold visitGpu
  by_cases hflag : ctx.flags.gpu = true
  · rw [if_pos hflag]
    obtain ⟨hsnapshot, hinfo⟩ := refreshGpu_belongs ctx hb hpid ho
    exact ⟨hsnapshot, fun _ => hinfo⟩
  · rw [if_neg hflag]
    rcases hkeep with hstart | htrue | ⟨hnever, hinvalid⟩
    · have hsnapshot := hb.snapshot
      have hinfo := hb.info
      rw [hpid, hstart] at hsnapshot hinfo
      exact ⟨hsnapshot, hinfo⟩
    · exact absurd htrue hflag
    · refine ⟨fun hvalid => ?_, fun hpos => absurd hpos (not_lt.mpr hnever)⟩
      rw [hinvalid] at hvalid
      cases hvalid

/-- A visit leaves a sample that belongs to the process it visited. -/
theorem visit_belongs (hb : Belongs scans sample) (hpid : sample.pid = pid)
    (ho : o.Of scans pid o.stat.startTicks) (hat : ctx.sampledAt = o.scan.sampledAt) (alloc : Allocations)
    (hkeep : sample.startTicks = o.stat.startTicks ∨ Replaces ctx.flags alloc sample) (heap : Heap) :
    Belongs scans (visit lib ctx pid o.stat o.reads alloc sample heap).sample := by
  have hgpu := visitGpu_belongs ctx hb hpid ho (hkeep.imp id fun h => h.2.2.2)
  refine ⟨?_, ?_, ?_, ?_, ?_, ?_⟩
  · intro _
    refine ⟨o, ?_, rfl, hat.symm, ?_⟩
    · simpa [hpid] using ho
    · intro hio
      have htotals := baseRow_io lib ctx pid o.reads o.stat hio
      simpa [visit, show (baseRow lib ctx pid o.stat o.reads).ioTotalsAvailable = true from hio] using htotals
  · subst hpid
    show (visitCommand ctx o.stat o.reads alloc sample heap).2.1.Holds _
    apply RetainedText.Holds.refresh
    · intro hs
      exact hb.same_command rfl ((sameProcess_iff _ _).mp hs).1
    · intro hfail
      rcases hkeep with hstart | ⟨hnone | htrue, -⟩
      · exact hb.same_command rfl hstart
      · exact RetainedText.holds_of_none hnone _
      · rw [hfail] at htrue
        cases htrue
    · exact ⟨o, ho, rfl⟩
  · subst hpid
    show (visitExecutable ctx o.stat o.reads alloc sample _).2.1.Holds _
    unfold visitExecutable
    by_cases hflag : ctx.flags.executable = true
    · rw [if_pos hflag]
      apply RetainedText.Holds.refresh
      · intro hs
        exact hb.same_executable rfl ((sameProcess_iff _ _).mp hs).1
      · intro hfail
        rcases hkeep with hstart | ⟨-, hnone | ⟨-, htrue⟩, -⟩
        · exact hb.same_executable rfl hstart
        · exact RetainedText.holds_of_none hnone _
        · rw [hfail] at htrue
          cases htrue
      · exact ⟨o, ho, rfl⟩
    · rw [if_neg hflag]
      rcases hkeep with hstart | ⟨-, hnone | ⟨htrue, -⟩, -⟩
      · exact hb.same_executable rfl hstart
      · exact RetainedText.holds_of_none hnone _
      · exact absurd htrue hflag
  · subst hpid
    exact storeCgroup_belongs hb rfl ho alloc _ rfl rfl rfl (hkeep.imp id fun h => h.2.2.1) _
  · subst hpid
    exact hgpu.1
  · subst hpid
    exact hgpu.2

/-! ### One row -/

theorem lsmProcessEnrich_frame (reads : ProcReads) (row : LsmProcessInfo) (flags : ScanFlags)
    (hflag : flags.executable = false) :
    (lsmProcessEnrich reads row flags).1.command = row.command ∧
    (lsmProcessEnrich reads row flags).1.executable = row.executable ∧
    (lsmProcessEnrich reads row flags).1.readBytes = row.readBytes ∧
    (lsmProcessEnrich reads row flags).1.writeBytes = row.writeBytes := by
  simp only [lsmProcessEnrich]
  split
  · exact ⟨rfl, rfl, rfl, rfl⟩
  · split
    · exact ⟨rfl, by simp [enrichCollect, hflag], rfl, rfl⟩
    · exact ⟨rfl, by simp [enrichCollect, enrichClear, hflag], rfl, rfl⟩

variable (ctx sample) in
/-- Enriching leaves the texts and totals of the row alone. -/
theorem enrichRow_frame (reads : ProcReads) (row : LsmProcessInfo) :
    (enrichRow ctx reads sample row).command = row.command ∧
    (enrichRow ctx reads sample row).executable = row.executable ∧
    (enrichRow ctx reads sample row).readBytes = row.readBytes ∧
    (enrichRow ctx reads sample row).writeBytes = row.writeBytes := by
  simp only [enrichRow]
  split
  · exact lsmProcessEnrich_frame reads (serveCgroup ctx sample row) _ rfl
  · exact ⟨rfl, rfl, rfl, rfl⟩

/-- Rates need a sample of the same instance that had both totals. -/
theorem ioRates_shown (row : LsmProcessInfo)
    (h : (ioRates lib ctx sample row).available = true ∨ (ioRates lib ctx sample row).readBytesPerSec ≠ 0 ∨
      (ioRates lib ctx sample row).writeBytesPerSec ≠ 0) :
    sameProcess sample row.instanceId = true ∧ sample.ioAvailable = true ∧
    (ioRates lib ctx sample row).readBytesPerSec =
      (lib.u64CounterRate row.readBytes sample.readBytes 1 (ctx.sampledAt - sample.sampledAt)).getD 0 ∧
    (ioRates lib ctx sample row).writeBytesPerSec =
      (lib.u64CounterRate row.writeBytes sample.writeBytes 1 (ctx.sampledAt - sample.sampledAt)).getD 0 := by
  simp only [ioRates] at h ⊢
  split at h
  · rename_i hready
    rw [if_pos hready]
    exact ⟨hready.1, hready.2.2.1, rfl, rfl⟩
  · simp at h

/-- A visit from a sample that belongs to its instance publishes an isolated row. -/
theorem visit_isolated (hb : Belongs scans sample) (hpid : sample.pid = pid)
    (ho : o.Of scans pid o.stat.startTicks) (hflags : ctx.flags = o.scan.flags)
    (hat : ctx.sampledAt = o.scan.sampledAt) (alloc : Allocations) (heap : Heap) :
    Isolated lib scans o.scan (visit lib ctx pid o.stat o.reads alloc sample heap).row := by
  have hrowPid := visit_row_pid lib ctx pid o.stat o.reads alloc sample heap
  have hrowInstance := visit_row_instanceId lib ctx pid o.stat o.reads alloc sample heap
  have hbaseline (hsame : sameProcess sample o.stat.startTicks = true) :
      ∃ o' : Observation, o'.Of scans pid o.stat.startTicks ∧ o'.stat.cpuTicks = sample.cpuTicks ∧
        o'.scan.sampledAt = sample.sampledAt ∧
        (sample.ioAvailable = true →
          o'.reads.readBytes = some sample.readBytes ∧ o'.reads.writeBytes = some sample.writeBytes) := by
    obtain ⟨hstart, hnonzero⟩ := (sameProcess_iff _ _).mp hsame
    have hvisited := hb.visited hnonzero
    rwa [hpid, hstart] at hvisited
  refine ⟨?_, ?_, ?_, ?_, ?_, ?_⟩
  · rw [hrowPid, hrowInstance]
    have hshown : (visit lib ctx pid o.stat o.reads alloc sample heap).row.command =
        (visitCommand ctx o.stat o.reads alloc sample heap).1 := (enrichRow_frame ..).1
    rw [hshown]
    apply RetainedText.refresh_shows (P := fun text => ∃ o' : Observation, o'.Of scans pid o.stat.startTicks ∧
      text = readProcessCommand o'.stat.name o'.reads.cmdline)
    · intro hs
      exact hb.same_command hpid ((sameProcess_iff _ _).mp hs).1
    · exact ⟨o, ho, rfl⟩
  · intro hflag
    rw [hrowPid, hrowInstance]
    have hshown : (visit lib ctx pid o.stat o.reads alloc sample heap).row.executable =
        (visitExecutable ctx o.stat o.reads alloc sample (visitCommand ctx o.stat o.reads alloc sample heap).2.2).1 :=
      (enrichRow_frame ..).2.1
    rw [hshown, visitExecutable, if_pos (by rw [hflags]; exact hflag)]
    apply RetainedText.refresh_shows (P := fun text => ∃ o' : Observation, o'.Of scans pid o.stat.startTicks ∧
      text = o'.reads.executable)
    · intro hs
      exact hb.same_executable hpid ((sameProcess_iff _ _).mp hs).1
    · exact ⟨o, ho, rfl⟩
  · intro hflag
    rw [hrowPid, hrowInstance]
    exact enrichRow_cgroup hb hpid ho _ rfl rfl rfl (by rw [hflags]; exact hflag)
  · intro hflag
    rw [← hflags] at hflag
    rw [hrowPid, hrowInstance]
    have hshown : (visit lib ctx pid o.stat o.reads alloc sample heap).row.gpu =
        (refreshGpu ctx sample o.stat.startTicks o.reads.gpu).info := by
      simp [visit, visitGpu, hflag]
    rw [hshown]
    exact (refreshGpu_belongs ctx hb hpid ho).2
  · intro hshare
    rw [hrowPid, hrowInstance]
    obtain ⟨hstart, hnonzero, -, -, hvalue⟩ := cpuShare_ne_zero lib ctx sample o.stat hshare
    obtain ⟨previous, hprevious, hticks, -⟩ := hbaseline ((sameProcess_iff _ _).mpr ⟨hstart, hnonzero⟩)
    refine ⟨previous, o, ctx.totalDelta, hprevious, ho, ?_⟩
    rw [hticks]
    exact hvalue
  · intro hrates
    rw [hrowPid, hrowInstance]
    obtain ⟨hsame, hio, hread, hwrite⟩ := ioRates_shown (baseRow lib ctx pid o.stat o.reads) hrates
    obtain ⟨previous, hprevious, -, htime, htotals⟩ := hbaseline hsame
    have hframe := enrichRow_frame ctx sample o.reads
      {baseRow lib ctx pid o.stat o.reads with
        command := (visitCommand ctx o.stat o.reads alloc sample heap).1
        executable := (visitExecutable ctx o.stat o.reads alloc sample
          (visitCommand ctx o.stat o.reads alloc sample heap).2.2).1}
    refine ⟨previous, sample.readBytes, sample.writeBytes, hprevious, (htotals hio).1, (htotals hio).2, ?_, ?_⟩
    · rw [htime, ← hat]
      refine hread.trans ?_
      rw [show (visit lib ctx pid o.stat o.reads alloc sample heap).row.readBytes =
        (baseRow lib ctx pid o.stat o.reads).readBytes from hframe.2.2.1]
    · rw [htime, ← hat]
      refine hwrite.trans ?_
      rw [show (visit lib ctx pid o.stat o.reads alloc sample heap).row.writeBytes =
        (baseRow lib ctx pid o.stat o.reads).writeBytes from hframe.2.2.2]

end

/-! ### One scan -/

/-- A PID is not reused while the scan reads it. -/
def ScanInput.Stable (input : ScanInput) : Prop :=
  ∀ pid reads alloc stat reads' alloc' stat', DirEntry.process pid reads alloc ∈ input.entries →
    reads.stat = some stat → DirEntry.process pid reads' alloc' ∈ input.entries → reads'.stat = some stat' →
    stat.startTicks = stat'.startTicks

/-- Where the scan meets a reused PID, it replaces all that the sample holds. -/
def Refreshes (backend : LsmProcessBackend) (input : ScanInput) : Prop :=
  ∀ pid reads alloc stat, DirEntry.process pid reads alloc ∈ input.entries → reads.stat = some stat →
    ∀ x ∈ backend.samples, x.pid = pid → x.startTicks = stat.startTicks ∨ Replaces input.flags alloc x

/-- A call or an allocation of the scan fails. -/
def Interrupted (backend : LsmProcessBackend) (input : ScanInput) : Prop :=
  input.currentTotalTicks = none ∨ input.opendir = false ∨ input.processesAllocated = false ∨
  input.mutationsReserved = false ∨ input.readdir = false ∨ input.closedir = false ∨
  ∃ pid reads alloc, DirEntry.process pid reads alloc ∈ input.entries ∧
    (alloc.row = false ∨
      reads.stat.isSome = true ∧ alloc.sample = false ∧ pid ∉ backend.samples.map (·.pid))

/-- A loop that ends without failure had room for every process it read. -/
theorem scanEntries_room {lib : Arithmetic} {ctx : ScanContext} {original : List PreviousProcessSample}
    {s : ScanState} (hs : Journalled original s) (entries : List DirEntry)
    (hend : (scanEntries lib ctx original.length s entries).2 = false) {pid : Nat} {reads : ProcReads}
    {alloc : Allocations} (hentry : DirEntry.process pid reads alloc ∈ entries) :
    alloc.row = true ∧ (reads.stat.isSome = true → alloc.sample = true ∨ pid ∈ original.map (·.pid)) := by
  induction entries generalizing s with
  | nil => cases hentry
  | cons entry rest ih =>
    simp only [scanEntries] at hend
    by_cases hfail : (scanEntry lib ctx original.length s entry).2 = true
    · rw [if_pos hfail, hfail] at hend
      cases hend
    · rw [if_neg hfail] at hend
      rcases List.mem_cons.mp hentry with rfl | hlater
      · by_cases hrow : alloc.row = true
        · refine ⟨hrow, ?_⟩
          intro hstat
          obtain ⟨stat, hstat⟩ := Option.isSome_iff_exists.mp hstat
          by_cases hknown : pid ∈ original.map (·.pid)
          · exact Or.inr hknown
          · -- An unknown PID needs a new sample.
            left
            by_contra hnoroom
            obtain ⟨appended, hpids⟩ := hs.pids
            apply hfail
            simp only [scanEntry, hrow, hstat, findOrCreateSample_new hpids hknown, Bool.not_eq_true] at hnoroom ⊢
            simp [hnoroom]
        · exact absurd (by simp [scanEntry, hrow]) hfail
      · exact ih (hs.entry entry) hend hlater

theorem Interrupted.fails (lib : Arithmetic) {backend : LsmProcessBackend} {input : ScanInput}
    (h : Interrupted backend input) : (lsmProcessScan lib backend input).2 = none := by
  simp only [lsmProcessScan]
  cases htotal : input.currentTotalTicks with
  | none => rfl
  | some total =>
    simp only
    split
    · rfl
    · rename_i hready
      split
      · rfl
      · rename_i hcomplete
        exfalso
        simp only [Bool.or_eq_true, not_or, Bool.not_eq_true, Bool.not_eq_false'] at hready hcomplete
        rcases h with h | h | h | h | h | h | ⟨pid, reads, alloc, hentry, hroom⟩
        · rw [htotal] at h
          cases h
        · simp [h] at hready
        · simp [h] at hready
        · simp [h] at hready
        · simp [h] at hcomplete
        · simp [h] at hcomplete
        · obtain ⟨hrow, hsample⟩ := scanEntries_room (Journalled.start _ _) input.entries hcomplete.1.1 hentry
          rcases hroom with hnorow | ⟨hstat, hnosample, hunknown⟩
          · rw [hrow] at hnorow
            cases hnorow
          · rcases hsample hstat with hroom | hknown
            · rw [hnosample] at hroom
              cases hroom
            · exact hunknown hknown

/-- The loop so far published isolated rows and left samples that belong. -/
structure Attributed (lib : Arithmetic) (scans : List ScanInput) (input : ScanInput)
    (original : List PreviousProcessSample) (s : ScanState) : Prop where
  belongs : ∀ x ∈ s.samples, Belongs scans x
  origin : ∀ x ∈ s.samples, x ∈ original ∨ ∃ reads alloc stat,
    DirEntry.process x.pid reads alloc ∈ input.entries ∧ reads.stat = some stat ∧ x.startTicks = stat.startTicks
  isolated : ∀ row ∈ s.processes, Isolated lib scans input row

section
variable {lib : Arithmetic} {ctx : ScanContext} {scans : List ScanInput} {input : ScanInput}
  {backend : LsmProcessBackend} {s : ScanState}

theorem Attributed.turn (hinput : input ∈ scans) (hflags : ctx.flags = input.flags)
    (hat : ctx.sampledAt = input.sampledAt) (hstable : input.Stable) (hrefresh : Refreshes backend input)
    (h : Attributed lib scans input backend.samples s) {n pid : Nat} {reads : ProcReads} {alloc : Allocations}
    {stat : LinuxProcessStat} {found : Found} (hentry : DirEntry.process pid reads alloc ∈ input.entries)
    (hstat : reads.stat = some stat) (hfound : findOrCreateSample s.samples n pid alloc.sample = some found) :
    Attributed lib scans input backend.samples (visited lib ctx n s pid reads alloc stat found) := by
  let o : Observation := ⟨input, reads, stat⟩
  have ho : o.Of scans pid o.stat.startTicks := ⟨hinput, ⟨alloc, hentry⟩, hstat, rfl⟩
  -- The sample a visit starts from is an original one, one of this scan, or new.
  have hsample : Belongs scans found.sample ∧ found.sample.pid = pid ∧
      (found.sample.startTicks = stat.startTicks ∨ Replaces input.flags alloc found.sample) ∧
      ∀ v, ∀ x ∈ found.samples.set found.index v, x ∈ s.samples ∨ x = v := by
    rcases findOrCreateSample_cases hfound with ⟨hsamples, hplace, -, hpid⟩ | rfl
    · have hmem := List.mem_of_getElem? hplace
      refine ⟨h.belongs _ hmem, hpid, ?_, fun v x hx => hsamples ▸ List.mem_or_eq_of_mem_set hx⟩
      rcases h.origin _ hmem with hold | ⟨reads', alloc', stat', hentry', hstat', hstart⟩
      · exact hrefresh pid reads alloc stat hentry hstat _ hold hpid
      · rw [hpid] at hentry'
        exact Or.inl (hstart.trans (hstable _ _ _ _ _ _ _ hentry' hstat' hentry hstat))
    · refine ⟨Belongs.new scans pid, rfl, Or.inr ?_, ?_⟩
      · exact ⟨Or.inl rfl, Or.inl rfl, Or.inl rfl, Or.inr ⟨le_refl _, rfl⟩⟩
      · intro v x hx
        simpa using hx
  obtain ⟨hb, hpid, hkeep, hmem⟩ := hsample
  rw [← hflags] at hkeep
  refine ⟨?_, ?_, ?_⟩
  · intro x hx
    rcases hmem _ x hx with hx | rfl
    · exact h.belongs x hx
    · exact visit_belongs (o := o) hb hpid ho hat alloc hkeep s.heap
  · intro x hx
    rcases hmem _ x hx with hx | rfl
    · exact h.origin x hx
    · exact Or.inr ⟨reads, alloc, stat, hpid.symm ▸ hentry, hstat, rfl⟩
  · intro row hrow
    rcases List.mem_append.mp hrow with hrow | hrow
    · exact h.isolated row hrow
    · rw [List.mem_singleton.mp hrow]
      exact visit_isolated (o := o) hb hpid ho hflags hat alloc s.heap

theorem Attributed.entries (hinput : input ∈ scans) (hflags : ctx.flags = input.flags)
    (hat : ctx.sampledAt = input.sampledAt) (hstable : input.Stable) (hrefresh : Refreshes backend input)
    (h : Attributed lib scans input backend.samples s) (n : Nat) (entries : List DirEntry)
    (hentries : entries ⊆ input.entries) :
    Attributed lib scans input backend.samples (scanEntries lib ctx n s entries).1 := by
  induction entries generalizing s with
  | nil => exact h
  | cons entry rest ih =>
    have hnext : Attributed lib scans input backend.samples (scanEntry lib ctx n s entry).1 := by
      rcases scanEntry_cases lib ctx n s entry with
        hfail | ⟨hskip, -⟩ | ⟨pid, reads, alloc, stat, found, rfl, -, hstat, hfound, hvisit⟩
      · rw [hfail]
        exact h
      · rw [hskip]
        exact h
      · rw [hvisit]
        exact h.turn hinput hflags hat hstable hrefresh (hentries (List.mem_cons_self ..)) hstat hfound
    simp only [scanEntries]
    by_cases hfail : (scanEntry lib ctx n s entry).2 = true
    · rw [if_pos hfail]
      exact hnext
    · rw [if_neg hfail]
      exact ih hnext fun e he => hentries (List.mem_cons_of_mem _ he)

end

/-- A scan that refreshes what it must publishes isolated rows, and leaves
samples that belong to the instances they name. -/
theorem lsmProcessScan_attributed (lib : Arithmetic) {past : List ScanInput} {backend : LsmProcessBackend}
    (hb : ∀ x ∈ backend.samples, Belongs past x) {input : ScanInput} (hstable : input.Stable)
    (hcond : Interrupted backend input ∨ Refreshes backend input) :
    (∀ x ∈ (lsmProcessScan lib backend input).1.samples, Belongs (past ++ [input]) x) ∧
    ∀ rows, (lsmProcessScan lib backend input).2 = some rows →
      ∀ row ∈ rows, Isolated lib (past ++ [input]) input row := by
  have hmono : ∀ x ∈ backend.samples, Belongs (past ++ [input]) x :=
    fun x hx => (hb x hx).mono (List.subset_append_left ..)
  cases houtcome : (lsmProcessScan lib backend input).2 with
  | none =>
    rw [(lsmProcessScan_failed lib backend input houtcome).1]
    exact ⟨hmono, fun rows hrows => nomatch hrows⟩
  | some rows =>
    have hrefresh : Refreshes backend input := by
      rcases hcond with hinterrupted | hrefresh
      · rw [hinterrupted.fails lib] at houtcome
        cases houtcome
      · exact hrefresh
    rcases lsmProcessScan_cases lib backend input with hearly | ⟨total, -, hrolled | ⟨-, hdone⟩⟩
    · rw [hearly] at houtcome
      cases houtcome
    · rw [hrolled] at houtcome
      cases houtcome
    · have hstart : Attributed lib (past ++ [input]) input backend.samples
          {samples := backend.samples, heap := backend.heap} :=
        ⟨hmono, fun x hx => Or.inl hx, fun row hrow => absurd hrow List.not_mem_nil⟩
      have hloop : Attributed lib (past ++ [input]) input backend.samples (scanLoop lib backend input total).1 :=
        hstart.entries (by simp) rfl rfl hstable hrefresh _ _ (List.Subset.refl _)
      rw [hdone] at houtcome ⊢
      obtain rfl := Option.some_inj.mp houtcome
      refine ⟨?_, ?_⟩
      · intro x hx
        exact hloop.belongs x (List.mem_of_mem_filter ((scanCommit_perm ..).mem_iff.mp hx))
      · intro rows hrows row hrow
        obtain rfl := Option.some_inj.mp hrows
        exact hloop.isolated row hrow

/-! ### Histories -/

/-- Every scan is interrupted, or refreshes what it must, in the state it starts from. -/
def Refreshing (lib : Arithmetic) (backend : LsmProcessBackend) : List ScanInput → Prop
  | [] => True
  | input :: rest =>
    (Interrupted backend input ∨ Refreshes backend input) ∧ Refreshing lib (lsmProcessScan lib backend input).1 rest

theorem Refreshing.belongs (lib : Arithmetic) {past history : List ScanInput} {s : Scanned} {input : ScanInput}
    (hb : ∀ x ∈ s.backend.samples, Belongs past x) (hstable : ∀ i ∈ history, i.Stable)
    (h : Refreshing lib s.backend (history ++ [input])) :
    (∀ x ∈ (history.foldl (Scanned.scan lib) s).backend.samples, Belongs (past ++ history) x) ∧
      (Interrupted (history.foldl (Scanned.scan lib) s).backend input ∨
        Refreshes (history.foldl (Scanned.scan lib) s).backend input) := by
  induction history generalizing past s with
  | nil => exact ⟨by simpa using hb, h.1⟩
  | cons first rest ih =>
    have hstep : ∀ x ∈ (s.scan lib first).backend.samples, Belongs (past ++ [first]) x :=
      (lsmProcessScan_attributed lib hb (hstable first (List.mem_cons_self ..)) h.1).1
    have hrest := ih hstep (fun i hi => hstable i (List.mem_cons_of_mem _ hi)) h.2
    rwa [List.append_assoc, List.singleton_append] at hrest

/-- **No value crosses a PID reuse.** In every history whose scans replace all that
the sample of a reused PID holds, whatever the flags, the times and the contents
of the directory, every published row holds only what was collected from its own
instance. -/
theorem rows_isolated (lib : Arithmetic) (totalMemoryBytes : Nat) (ticksPerSecond bootTimeEpoch : Int)
    (currentUid : Nat) (history : List ScanInput) (input : ScanInput)
    (hstable : ∀ i ∈ history ++ [input], i.Stable)
    (hrefresh : Refreshing lib (lsmProcessBackendCreate totalMemoryBytes ticksPerSecond bootTimeEpoch currentUid)
      (history ++ [input])) :
    let before := scanHistory lib
      (lsmProcessBackendCreate totalMemoryBytes ticksPerSecond bootTimeEpoch currentUid) history
    ∀ rows, (lsmProcessScan lib before.backend input).2 = some rows →
      ∀ row ∈ rows, Isolated lib (history ++ [input]) input row := by
  intro before
  let fresh : Scanned := ⟨lsmProcessBackendCreate totalMemoryBytes ticksPerSecond bootTimeEpoch currentUid, none⟩
  have hfresh : ∀ x ∈ fresh.backend.samples, Belongs [] x := fun x hx => absurd hx List.not_mem_nil
  obtain ⟨hb, hcond⟩ := Refreshing.belongs lib hfresh (fun i hi => hstable i (List.mem_append_left _ hi)) hrefresh
  rw [List.nil_append] at hb
  exact (lsmProcessScan_attributed lib hb (hstable input (by simp)) hcond).2

/-! ### A reused PID -/

instance (flags : ScanFlags) (alloc : Allocations) (x : PreviousProcessSample) : Decidable (Replaces flags alloc x) :=
  inferInstanceAs (Decidable (_ ∧ _ ∧ _ ∧ _))

/-- A scan of one process, PID 7, of the given instance and executable. -/
def reuseScan (flags : ScanFlags) (sampledAt : ℚ) (startTicks : Nat) (executable : Chars 512) : ScanInput :=
  .complete flags 1000 sampledAt [.process 7 {ProcReads.ofStat (.ofTicks startTicks 5) with executable} .all]

theorem mem_reuseScan {flags : ScanFlags} {sampledAt : ℚ} {startTicks : Nat} {executable : Chars 512} {pid : Nat}
    {reads : ProcReads} {alloc : Allocations}
    (h : DirEntry.process pid reads alloc ∈ (reuseScan flags sampledAt startTicks executable).entries) :
    pid = 7 ∧ reads = {ProcReads.ofStat (.ofTicks startTicks 5) with executable} ∧ alloc = .all := by
  simpa [reuseScan, ScanInput.complete] using h

theorem reuseScan_stable (flags : ScanFlags) (sampledAt : ℚ) (startTicks : Nat) (executable : Chars 512) :
    (reuseScan flags sampledAt startTicks executable).Stable := by
  intro pid reads alloc stat reads' alloc' stat' hentry hstat hentry' hstat'
  obtain ⟨-, rfl, -⟩ := mem_reuseScan hentry
  obtain ⟨-, rfl, -⟩ := mem_reuseScan hentry'
  rw [← Option.some_inj.mp (hstat.symm.trans hstat')]

def oldExecutable : Chars 512 := ⟨ascii "/bin/old", by decide, by decide⟩
def newExecutable : Chars 512 := ⟨ascii "/bin/new", by decide, by decide⟩

/-- The new instance is first seen by a scan that collects no executable, and
then within the refresh interval by one that does. -/
def reuseHistory : List ScanInput :=
  [reuseScan {executable := true} 1 100 oldExecutable, reuseScan {} 2 200 newExecutable]

def reuseLast : ScanInput := reuseScan {executable := true} 3 200 newExecutable

/-- The last scan publishes the old instance's executable for the new instance. -/
theorem stale_executable :
    (∀ i ∈ reuseHistory ++ [reuseLast], i.Stable) ∧
    ∃ rows row, (lsmProcessScan .documented
        (scanHistory .documented (lsmProcessBackendCreate 0 100 0 0) reuseHistory).backend reuseLast).2 = some rows ∧
      row ∈ rows ∧ row.pid = 7 ∧ row.instanceId = 200 ∧ row.executable = oldExecutable ∧
      ¬ Isolated .documented (reuseHistory ++ [reuseLast]) reuseLast row := by
  refine ⟨?_, ?_⟩
  · intro i hi
    simp only [reuseHistory, reuseLast, List.cons_append, List.nil_append, List.mem_cons, List.not_mem_nil,
      or_false] at hi
    rcases hi with rfl | rfl | rfl <;> exact reuseScan_stable _ _ _ _
  · have hshown : (lsmProcessScan .documented
        (scanHistory .documented (lsmProcessBackendCreate 0 100 0 0) reuseHistory).backend reuseLast).2.map
        (fun rows => rows.map fun row => (row.pid, row.instanceId, row.executable)) =
        some [(7, 200, oldExecutable)] := by decide +kernel
    obtain ⟨rows, hrows, hmap⟩ := Option.map_eq_some_iff.mp hshown
    obtain ⟨row, rest, rfl, hrow, -⟩ := List.map_eq_cons_iff.mp hmap
    obtain ⟨hpid, hinstance, hexecutable⟩ : row.pid = 7 ∧ row.instanceId = 200 ∧ row.executable = oldExecutable := by
      simpa using hrow
    refine ⟨_, row, hrows, List.mem_cons_self .., hpid, hinstance, hexecutable, ?_⟩
    intro hisolated
    obtain ⟨o, ⟨hscan, ⟨alloc, hentry⟩, hstat, hstart⟩, heq⟩ := hisolated.executable rfl
    rw [hpid] at hentry
    rw [hinstance] at hstart
    rw [hexecutable] at heq
    simp only [reuseHistory, reuseLast, List.cons_append, List.nil_append, List.mem_cons, List.not_mem_nil,
      or_false] at hscan
    -- The only scans that saw instance 200 read its own executable.
    rcases hscan with hscan | hscan | hscan <;> rw [hscan] at hentry <;> obtain ⟨-, hreads, -⟩ := mem_reuseScan hentry
    · rw [hreads] at hstat
      rw [← Option.some_inj.mp hstat] at hstart
      exact absurd hstart (by decide)
    · rw [hreads] at heq
      exact absurd heq (by decide)
    · rw [hreads] at heq
      exact absurd heq (by decide)

/-- A reuse met by a scan that collects what the sample holds. -/
theorem rows_isolated_reuse :
    ∃ rows, (lsmProcessScan .documented (scanHistory .documented (lsmProcessBackendCreate 0 100 0 0)
        [reuseScan {executable := true} 1 100 oldExecutable]).backend reuseLast).2 = some rows ∧
      rows.map (fun row => (row.instanceId, row.executable)) = [(200, newExecutable)] ∧
      ∀ row ∈ rows,
        Isolated .documented [reuseScan {executable := true} 1 100 oldExecutable, reuseLast] reuseLast row := by
  have hrefresh : Refreshing .documented (lsmProcessBackendCreate 0 100 0 0)
      ([reuseScan {executable := true} 1 100 oldExecutable] ++ [reuseLast]) := by
    refine ⟨Or.inr ?_, Or.inr ?_, trivial⟩
    · intro pid reads alloc stat _ _ x hx
      cases hx
    · intro pid reads alloc stat hentry hstat x hx hpid
      obtain ⟨rfl, rfl, rfl⟩ := mem_reuseScan hentry
      have hheld : ∀ x ∈ (lsmProcessScan .documented (lsmProcessBackendCreate 0 100 0 0)
          (reuseScan {executable := true} 1 100 oldExecutable)).1.samples,
          Replaces {executable := true} .all x := by decide
      exact Or.inr (hheld x hx)
  have hshown : (lsmProcessScan .documented (scanHistory .documented (lsmProcessBackendCreate 0 100 0 0)
      [reuseScan {executable := true} 1 100 oldExecutable]).backend reuseLast).2.map
      (fun rows => rows.map fun row => (row.instanceId, row.executable)) = some [(200, newExecutable)] := by
    decide
  obtain ⟨rows, hrows, hmap⟩ := Option.map_eq_some_iff.mp hshown
  refine ⟨rows, hrows, hmap, ?_⟩
  apply rows_isolated .documented 0 100 0 0 [reuseScan {executable := true} 1 100 oldExecutable] reuseLast ?_ hrefresh
    rows hrows
  intro i hi
  simp only [reuseLast, List.cons_append, List.nil_append, List.mem_cons, List.not_mem_nil, or_false] at hi
  rcases hi with rfl | rfl <;> exact reuseScan_stable _ _ _ _

end SystemMonitor.Process
