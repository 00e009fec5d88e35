import SystemMonitor.Process.Rollback

/-! The scan loop in closed form.

The loop overwrites samples in place, appends others and journals what it
overwrote. When the vector is sorted and the enumeration names each PID once,
all of that is determined by the list of visits it made, its turns: a visit
always starts from the sample that was retained before the scan, the vector is
the original with each visited sample replaced and the new ones behind it, and
the journal holds the originals (`Progress`, `scanEntries_progress`). -/
namespace SystemMonitor.Process
open Lib Journal

/-! ### Looking a PID up -/

/-- What the binary search needs. -/
def StrictlySorted (samples : List PreviousProcessSample) : Prop :=
  samples.Pairwise fun a b => a.pid < b.pid

theorem StrictlySorted.nodup {samples : List PreviousProcessSample} (h : StrictlySorted samples) :
    (samples.map (·.pid)).Nodup := by
  apply List.pairwise_map.mpr
  exact h.imp fun hlt => Nat.ne_of_lt hlt

/-- The sample retained for a PID, or the one that would be created. -/
def retained (samples : List PreviousProcessSample) (pid : Nat) : PreviousProcessSample :=
  (samples.find? fun s => s.pid = pid).getD {pid}

theorem retained_pid (samples : List PreviousProcessSample) (pid : Nat) : (retained samples pid).pid = pid :=
  key_find?_getD PreviousProcessSample.pid samples {pid := pid}

theorem retained_of_not_mem {samples : List PreviousProcessSample} {pid : Nat}
    (h : pid ∉ samples.map (·.pid)) : retained samples pid = {pid} := by
  have hne : ∀ s ∈ samples, s.pid ≠ pid := fun s hs heq => h (List.mem_map.mpr ⟨s, hs, heq⟩)
  exact find?_getD_of_forall_ne PreviousProcessSample.pid (x := {pid := pid}) hne

/-- A retained sample is of the vector unless it is a new one. -/
theorem retained_mem_or (samples : List PreviousProcessSample) (pid : Nat) :
    retained samples pid ∈ samples ∨ retained samples pid = {pid} := by
  unfold retained
  cases h : samples.find? fun s => s.pid = pid with
  | none => exact Or.inr rfl
  | some s => exact Or.inl (List.mem_of_find?_eq_some h)

theorem getElem?_findIdx_retained {samples : List PreviousProcessSample} {pid : Nat}
    (h : pid ∈ samples.map (·.pid)) :
    samples[samples.findIdx fun s => s.pid = pid]? = some (retained samples pid) := by
  obtain ⟨s, hs, heq⟩ := List.mem_map.mp h
  have hlt : (samples.findIdx fun s => s.pid = pid) < samples.length :=
    List.findIdx_lt_length_of_exists ⟨s, hs, by simpa using heq⟩
  have hfind : samples.find? (fun s => s.pid = pid) = samples[samples.findIdx fun s => s.pid = pid]? := by
    exact List.find?_eq_getElem?_findIdx ..
  unfold retained
  rw [hfind, List.getElem?_eq_getElem hlt]
  rfl

theorem StrictlySorted.ascending {samples original : List PreviousProcessSample} {appended : List Nat}
    (hsorted : StrictlySorted original)
    (hpids : samples.map (·.pid) = original.map (·.pid) ++ appended) :
    Ascending (pidAt samples) original.length := by
  intro i j hij hj
  have hi : i < original.length := Nat.lt_trans hij hj
  rw [pidAt_of_map hpids (List.getElem?_eq_getElem hi), pidAt_of_map hpids (List.getElem?_eq_getElem hj)]
  exact List.pairwise_iff_getElem.mp hsorted i j hi hj hij

/-- A retained PID is found at its place. -/
theorem findOrCreateSample_known {samples original : List PreviousProcessSample} {appended : List Nat}
    (hsorted : StrictlySorted original)
    (hpids : samples.map (·.pid) = original.map (·.pid) ++ appended) {i : Nat} {o sample : PreviousProcessSample}
    (hi : original[i]? = some o) (hsample : samples[i]? = some sample) (reserved : Bool) :
    findOrCreateSample samples original.length o.pid reserved = some ⟨samples, i, sample⟩ := by
  have hlt : i < original.length := (List.getElem?_eq_some_iff.mp hi).1
  have hlow : lowerBound (pidAt samples) o.pid original.length 0 original.length = i :=
    lowerBound_hit _ _ (hsorted.ascending hpids) hlt (pidAt_of_map hpids hi)
  have hpid : sample.pid = o.pid := by
    have := pidAt_of_map hpids hi
    unfold pidAt at this
    rwa [hsample] at this
  simp only [findOrCreateSample, hlow, hsample, hlt, hpid, and_self, if_true]

/-! ### Turns -/

/-- A visit the loop made, with the heap it started from. -/
structure Turn where
  pid : Nat
  reads : ProcReads
  alloc : Allocations
  stat : LinuxProcessStat
  heap : Heap

/-- The turn reads an entry of the directory. -/
def Turn.Reads (t : Turn) (entries : List DirEntry) : Prop :=
  DirEntry.process t.pid t.reads t.alloc ∈ entries ∧ t.reads.stat = some t.stat

theorem Turn.Reads.cons {t : Turn} {entry : DirEntry} {rest : List DirEntry} (h : t.Reads rest) :
    t.Reads (entry :: rest) := ⟨List.mem_cons_of_mem _ h.1, h.2⟩

theorem Turn.Reads.head {t : Turn} {entry : DirEntry} {rest : List DirEntry} (h : t.Reads [entry]) :
    t.Reads (entry :: rest) := ⟨List.mem_singleton.mp h.1 ▸ List.mem_cons_self .., h.2⟩

def DirEntry.pid? : DirEntry → Option Nat
  | .other => none
  | .process pid _ _ => some pid

section
variable (lib : Arithmetic) (ctx : ScanContext) (original : List PreviousProcessSample)

def Turn.visit (t : Turn) : Visit :=
  Process.visit lib ctx t.pid t.stat t.reads t.alloc (retained original t.pid) t.heap

theorem Turn.visit_sample_pid (t : Turn) : (t.visit lib ctx original).sample.pid = t.pid :=
  retained_pid original t.pid

/-- The samples the turns leave, in the order of the turns. -/
def after (turns : List Turn) : List PreviousProcessSample := turns.map fun t => (t.visit lib ctx original).sample

theorem map_pid_after (turns : List Turn) : (after lib ctx original turns).map (·.pid) = turns.map Turn.pid := by
  unfold after
  rw [List.map_map]
  apply List.map_congr_left
  intro t _
  exact t.visit_sample_pid lib ctx original

/-- Whether the turn's PID had a sample before the scan. -/
def Turn.known (t : Turn) : Bool := t.pid ∈ original.map (·.pid)

/-- The turn's place in the vector, with what stood there. -/
def Turn.mutation (t : Turn) : PreviousProcessMutation :=
  (original.findIdx fun s => s.pid = t.pid, retained original t.pid)

/-- Each turn starts from the heap the one before it left. -/
def Threaded : Heap → List Turn → Heap → Prop
  | start, [], final => start = final
  | start, t :: rest, final => t.heap = start ∧ Threaded (t.visit lib ctx original).heap rest final

theorem Threaded.append {start middle : Heap} {turns : List Turn}
    (h : Threaded lib ctx original start turns middle) {t : Turn} (ht : t.heap = middle) :
    Threaded lib ctx original start (turns ++ [t]) (t.visit lib ctx original).heap := by
  induction turns generalizing start with
  | nil =>
    subst h
    exact ⟨ht, rfl⟩
  | cons t' rest ih => exact ⟨h.1, ih h.2⟩

/-- The loop's variables after the given turns. -/
structure Progress (heap : Heap) (turns : List Turn) (s : ScanState) : Prop where
  distinct : (turns.map Turn.pid).Nodup
  samples : s.samples = overlay (·.pid) original (after lib ctx original turns) ++
    after lib ctx original (turns.filter fun t => !t.known original)
  mutations : s.mutations = (turns.filter (·.known original)).map (·.mutation original)
  processes : s.processes = turns.map fun t => (t.visit lib ctx original).row
  heaps : Threaded lib ctx original heap turns s.heap

variable {lib ctx original}

theorem Progress.start (heap : Heap) : Progress lib ctx original heap [] {samples := original, heap} where
  distinct := List.nodup_nil
  samples := by simp [overlay_nil, after]
  mutations := rfl
  processes := rfl
  heaps := rfl

variable {heap : Heap} {turns : List Turn} {s : ScanState}

theorem Progress.pids (h : Progress lib ctx original heap turns s) :
    s.samples.map (·.pid) = original.map (·.pid) ++ (turns.filter fun t => !t.known original).map Turn.pid := by
  rw [h.samples, List.map_append, map_key_overlay, map_pid_after]

/-- The turn of a PID not visited before, on a sample that was there. -/
theorem Progress.overwrite (hsorted : StrictlySorted original) (h : Progress lib ctx original heap turns s)
    (t : Turn) (hnew : t.pid ∉ turns.map Turn.pid) (hknown : t.known original = true) (hheap : t.heap = s.heap) :
    Progress lib ctx original heap (turns ++ [t])
      { samples := s.samples.set (t.mutation original).1 (t.visit lib ctx original).sample
        heap := (t.visit lib ctx original).heap
        mutations := s.mutations ++ [t.mutation original]
        processes := s.processes ++ [(t.visit lib ctx original).row] } where
  distinct := by
    rw [List.map_append]
    exact List.Nodup.append h.distinct (List.nodup_singleton _) (by simpa using hnew)
  samples := by
    have hplace : original[(t.mutation original).1]? = some (retained original t.pid) :=
      getElem?_findIdx_retained (of_decide_eq_true hknown)
    have hlt := (List.getElem?_eq_some_iff.mp hplace).1
    show s.samples.set _ _ = _
    rw [h.samples, List.set_append_left _ _ (by rwa [length_overlay]),
      set_overlay (v := (t.visit lib ctx original).sample) hsorted.nodup _ hplace rfl]
    · simp [after, hknown]
    · intro e he
      rw [t.visit_sample_pid lib ctx original]
      intro heq
      apply hnew
      rw [← map_pid_after lib ctx original, ← heq]
      exact List.mem_map_of_mem he
  mutations := by simp [h.mutations, hknown]
  processes := by simp [h.processes]
  heaps := h.heaps.append lib ctx original hheap

/-- The turn of a PID without a sample. -/
theorem Progress.appended (h : Progress lib ctx original heap turns s) (t : Turn)
    (hnew : t.pid ∉ turns.map Turn.pid) (hknown : t.known original = false) (hheap : t.heap = s.heap) :
    Progress lib ctx original heap (turns ++ [t])
      { samples := s.samples ++ [(t.visit lib ctx original).sample]
        heap := (t.visit lib ctx original).heap
        mutations := s.mutations
        processes := s.processes ++ [(t.visit lib ctx original).row] } where
  distinct := by
    rw [List.map_append]
    exact List.Nodup.append h.distinct (List.nodup_singleton _) (by simpa using hnew)
  samples := by
    have hmiss : ∀ x ∈ original, x.pid ≠ (t.visit lib ctx original).sample.pid := by
      intro x hx
      rw [t.visit_sample_pid lib ctx original]
      intro heq
      exact of_decide_eq_false hknown (List.mem_map.mpr ⟨x, hx, heq⟩)
    show s.samples ++ _ = _
    rw [h.samples]
    simp [after, hknown, overlay_append_of_forall_ne _ _ hmiss]
  mutations := by simp [h.mutations, hknown]
  processes := by simp [h.processes]
  heaps := h.heaps.append lib ctx original hheap

/-- The sample of a retained PID not visited yet is the original one. -/
theorem Progress.lookup (h : Progress lib ctx original heap turns s) {pid : Nat}
    (hnew : pid ∉ turns.map Turn.pid) (hknown : pid ∈ original.map (·.pid)) :
    s.samples[original.findIdx fun s => s.pid = pid]? = some (retained original pid) := by
  have hplace := getElem?_findIdx_retained hknown
  have hlt := (List.getElem?_eq_some_iff.mp hplace).1
  rw [h.samples, List.getElem?_append_left (by rwa [length_overlay]), getElem?_overlay, hplace, Option.map_some,
    find?_getD_of_forall_ne]
  intro e he heq
  apply hnew
  rw [← map_pid_after lib ctx original, ← retained_pid original pid, ← heq]
  exact List.mem_map_of_mem he

theorem Progress.turn (hsorted : StrictlySorted original) (h : Progress lib ctx original heap turns s)
    (t : Turn) (hnew : t.pid ∉ turns.map Turn.pid) (hheap : t.heap = s.heap) {found : Found}
    (hfound : findOrCreateSample s.samples original.length t.pid t.alloc.sample = some found) :
    Progress lib ctx original heap (turns ++ [t])
      (visited lib ctx original.length s t.pid t.reads t.alloc t.stat found) := by
  by_cases hknown : t.pid ∈ original.map (·.pid)
  · have hplace := getElem?_findIdx_retained hknown
    have hlt := (List.getElem?_eq_some_iff.mp hplace).1
    have hhit := findOrCreateSample_known hsorted h.pids hplace (h.lookup hnew hknown) t.alloc.sample
    rw [retained_pid, hfound] at hhit
    rw [Option.some_inj.mp hhit]
    have := h.overwrite hsorted t hnew (decide_eq_true hknown) hheap
    simp only [visited, hlt, if_true, ← hheap]
    exact this
  · have hmiss := findOrCreateSample_new h.pids hknown t.alloc.sample
    rcases findOrCreateSample_cases hfound with ⟨-, hplace, hlt, hpid⟩ | rfl
    · by_cases hreserved : t.alloc.sample
      · rw [if_pos hreserved, hfound] at hmiss
        rw [Option.some_inj.mp hmiss] at hlt
        have hlong := congrArg List.length h.samples
        rw [List.length_append, length_overlay] at hlong
        exact absurd hlt (by simp only; omega)
      · rw [if_neg hreserved, hfound] at hmiss
        cases hmiss
    · have hlong : ¬ s.samples.length < original.length := by
        rw [h.samples, List.length_append, length_overlay]
        omega
      have hset (w v : PreviousProcessSample) :
          (s.samples ++ [w]).set s.samples.length v = s.samples ++ [v] := by simp
      have := h.appended t hnew (decide_eq_false hknown) hheap
      simp only [visited, hlong, if_false, hset, ← hheap]
      rw [← retained_of_not_mem hknown]
      exact this

/-- One entry is a turn or changes nothing. -/
theorem scanEntry_progress (hsorted : StrictlySorted original) (h : Progress lib ctx original heap turns s)
    (entry : DirEntry) (hnew : ∀ pid, entry.pid? = some pid → pid ∉ turns.map Turn.pid) :
    (scanEntry lib ctx original.length s entry).1 = s ∨
    ∃ t : Turn, Progress lib ctx original heap (turns ++ [t]) (scanEntry lib ctx original.length s entry).1 ∧
      entry.pid? = some t.pid ∧ t.Reads [entry] := by
  rcases scanEntry_cases lib ctx original.length s entry with
    hfail | ⟨hskip, -⟩ | ⟨pid, reads, alloc, stat, found, rfl, -, hstat, hfound, hvisit⟩
  · exact Or.inl (by rw [hfail])
  · exact Or.inl (by rw [hskip])
  · rw [hvisit]
    exact Or.inr ⟨⟨pid, reads, alloc, stat, s.heap⟩, h.turn hsorted _ (hnew pid rfl) rfl hfound, rfl,
      List.mem_singleton.mpr rfl, hstat⟩

/-- The loop makes its turns on entries of the directory, and stops early only by failing. -/
theorem scanEntries_progress (hsorted : StrictlySorted original) (entries : List DirEntry)
    (hnodup : (entries.filterMap DirEntry.pid?).Nodup) (h : Progress lib ctx original heap turns s)
    (hnew : ∀ pid ∈ entries.filterMap DirEntry.pid?, pid ∉ turns.map Turn.pid) :
    ∃ more : List Turn,
      Progress lib ctx original heap (turns ++ more) (scanEntries lib ctx original.length s entries).1 ∧
      ∀ t ∈ more, t.Reads entries := by
  induction entries generalizing turns s with
  | nil => exact ⟨[], by simpa [scanEntries] using h, fun t ht => absurd ht List.not_mem_nil⟩
  | cons entry rest ih =>
    have hentry : ∀ pid, entry.pid? = some pid → pid ∉ turns.map Turn.pid := by
      intro pid hpid
      exact hnew pid (List.mem_filterMap.mpr ⟨entry, List.mem_cons_self .., hpid⟩)
    have hrest : ∀ pid ∈ rest.filterMap DirEntry.pid?, pid ∉ turns.map Turn.pid := by
      intro pid hpid
      obtain ⟨e, he, hepid⟩ := List.mem_filterMap.mp hpid
      exact hnew pid (List.mem_filterMap.mpr ⟨e, List.mem_cons_of_mem _ he, hepid⟩)
    have hnodup' : (rest.filterMap DirEntry.pid?).Nodup :=
      hnodup.sublist ((List.sublist_cons_self entry rest).filterMap _)
    simp only [scanEntries]
    rcases scanEntry_progress hsorted h entry hentry with hsame | ⟨t, ht, hpid, hreads⟩
    · by_cases hfail : (scanEntry lib ctx original.length s entry).2
      · rw [if_pos hfail]
        exact ⟨[], by simpa [hsame] using h, fun t ht => absurd ht List.not_mem_nil⟩
      · rw [if_neg hfail, hsame]
        obtain ⟨more, hmore, hmoreReads⟩ := ih hnodup' h hrest
        exact ⟨more, hmore, fun t ht => (hmoreReads t ht).cons⟩
    · have hfresh : ∀ pid ∈ rest.filterMap DirEntry.pid?, pid ∉ (turns ++ [t]).map Turn.pid := by
        intro pid hmem
        rw [List.map_append, List.mem_append]
        intro hcase
        rcases hcase with hold | hold
        · exact hrest pid hmem hold
        · rw [List.filterMap_cons_some hpid] at hnodup
          have : pid = t.pid := by simpa using hold
          exact (List.nodup_cons.mp hnodup).1 (this ▸ hmem)
      by_cases hfail : (scanEntry lib ctx original.length s entry).2
      · rw [if_pos hfail]
        refine ⟨[t], ht, ?_⟩
        intro t' ht'
        rw [List.mem_singleton.mp ht']
        exact hreads.head
      · rw [if_neg hfail]
        obtain ⟨more, hmore, hmoreReads⟩ := ih hnodup' ht hfresh
        refine ⟨t :: more, by simpa using hmore, ?_⟩
        intro t' ht'
        rcases List.mem_cons.mp ht' with rfl | ht'
        · exact hreads.head
        · exact (hmoreReads t' ht').cons

/-- What was appended. -/
theorem Progress.drop (h : Progress lib ctx original heap turns s) :
    s.samples.drop original.length = after lib ctx original (turns.filter fun t => !t.known original) := by
  rw [h.samples, List.drop_left' (length_overlay ..)]

end

end SystemMonitor.Process
