import SystemMonitor.Pages.Forest

/-! What decides the rows of a rebuild.

Which processes a rebuild shows and under which others it puts them is the shape of the
store. In tree mode it is given by the processes shown, their parents, and for each
cycle shown the process at which the first row of the snapshot enters it
(`mem_shape`). Two snapshots of one structure are rebuilt to the same shape
just where these are the same (`shape_perm_iff`). -/
namespace SystemMonitor.Pages
open Lib ParentWalk

/-- Which processes stand under which. -/
def shape (store : List DetailsRow) : List (Nat × Option Nat) := store.map fun row => (row.process.pid, row.parent)

def structureKey (process : LsmProcessInfo) : Nat × Nat × Nat := (process.pid, process.instanceId, process.ppid)

/-- The same processes with the same parents, in any order. -/
def SameStructure (rows rows' : List LsmProcessInfo) : Prop := (rows.map structureKey).Perm (rows'.map structureKey)

theorem SameStructure.pid_iff {rows rows' : List LsmProcessInfo} (h : SameStructure rows rows') {pid : Nat} :
    pid ∈ rows.map (·.pid) ↔ pid ∈ rows'.map (·.pid) := by
  have hperm := h.map Prod.fst
  rw [List.map_map, List.map_map] at hperm
  exact hperm.mem_iff

theorem ProcessSnapshot.parentPid_eq_some_iff (snap : ProcessSnapshot) {pid parent : Nat} :
    parentPid snap.rows pid = some parent ↔
      (∃ key ∈ snap.rows.map structureKey, key.1 = pid ∧ key.2.2 = parent) ∧ parent ∈ snap.rows.map (·.pid) := by
  constructor
  · intro h
    obtain ⟨process, hfind, hparent⟩ := Option.bind_eq_some_iff.mp h
    rw [Option.ite_none_right_eq_some] at hparent
    obtain ⟨hmem, hvalue⟩ := hparent
    cases hvalue
    have hpid := List.find?_some hfind
    exact ⟨⟨structureKey process, List.mem_map_of_mem (List.mem_of_find?_eq_some hfind), beq_iff_eq.mp hpid, rfl⟩, hmem⟩
  · intro h
    obtain ⟨⟨key, hkey, rfl, rfl⟩, hmem⟩ := h
    obtain ⟨process, hprocess, rfl⟩ := List.mem_map.mp hkey
    obtain ⟨k, hk, rfl⟩ := exists_rowAt hprocess
    rw [parentPid, show (structureKey (rowAt snap.rows k)).1 = pidAt snap.rows k from rfl, snap.find_pidAt hk,
      Option.bind_some]
    exact if_pos hmem

theorem SameStructure.parentPid_eq {snap snap' : ProcessSnapshot} (h : SameStructure snap.rows snap'.rows) :
    parentPid snap.rows = parentPid snap'.rows := by
  funext pid
  refine Option.ext fun parent => ?_
  rw [snap.parentPid_eq_some_iff, snap'.parentPid_eq_some_iff, h.pid_iff]
  simp only [h.mem_iff]

/-! ### Where cycles are broken -/

section
variable {rows : List LsmProcessInfo} {direct : LsmProcessInfo → Bool}

/-- A cycle is entered at one process only. -/
theorem EntryPid.unique {pid a b : Nat} (ha : EntryPid rows direct pid a) (hb : EntryPid rows direct pid b) : a = b := by
  obtain ⟨start, -, hshown, hway, hfirst, henters⟩ := ha
  obtain ⟨start', -, hshown', hway', hfirst', henters'⟩ := hb
  have hsame : start = start' := by
    rcases Nat.lt_trichotomy start start' with hlt | heq | hgt
    · exact absurd hway (hfirst' start hlt hshown)
    · exact heq
    · exact absurd hway' (hfirst start' hgt hshown')
  subst hsame
  exact henters.unique henters'

/-- All members of a cycle are led to by the same rows. -/
theorem EntryPid.along {a b entry : Nat} (h : EntryPid rows direct a entry)
    (hab : Relation.ReflTransGen (Step (parentPid rows)) a b) (hba : Relation.ReflTransGen (Step (parentPid rows)) b a) :
    EntryPid rows direct b entry := by
  obtain ⟨start, hlt, hshown, hway, hfirst, henters⟩ := h
  exact ⟨start, hlt, hshown, hway.trans hab, fun j hj hshownJ hwayJ => hfirst j hj hshownJ (hwayJ.trans hba), henters⟩

/-- The PPID of the process names the one at which its cycle is entered. -/
def BrokenAt (rows : List LsmProcessInfo) (direct : LsmProcessInfo → Bool) (pid : Nat) : Prop :=
  ∃ entry, OnCycle (parentPid rows) pid ∧ parentPid rows pid = some entry ∧ EntryPid rows direct pid entry

end

/-- A rebuild in tree mode, and where it breaks a cycle. -/
theorem rebuild_rows (snap : ProcessSnapshot) (direct : LsmProcessInfo → Bool) :
    ∃ store, rebuildDetailsModel true snap.rows direct = some store ∧ Forest snap.rows direct store ∧
      ∀ row ∈ store, row.parent = none → OnCycle (parentPid snap.rows) row.process.pid →
        BrokenAt snap.rows direct row.process.pid := by
  obtain ⟨placed, hgrown, hall, heq⟩ := rebuild_grown snap.rows direct
  refine ⟨_, heq, hgrown.forest snap hall, ?_⟩
  intro row hrow htop hcycle
  obtain ⟨entry, hparent, hentry⟩ := hgrown.entry snap hall hrow htop hcycle
  exact ⟨entry, hcycle, hparent, hentry⟩

section
variable {rows : List LsmProcessInfo} {direct : LsmProcessInfo → Bool} {store : List DetailsRow}

/-- A process at which its cycle is broken is at the top. -/
theorem Forest.top_of_brokenAt (h : Forest rows direct store)
    (hbroken : ∀ row ∈ store, row.parent = none → OnCycle (parentPid rows) row.process.pid →
      BrokenAt rows direct row.process.pid)
    {row : DetailsRow} (hrow : row ∈ store) (hat : BrokenAt rows direct row.process.pid) : row.parent = none := by
  obtain ⟨entry, hcycle, hparent, hentry⟩ := hat
  have hshown := (h.shown _).mp (List.mem_map_of_mem hrow)
  obtain ⟨root, ⟨hway, top, htop, rfl, hnone⟩, -⟩ := h.broken _ hshown hcycle
  obtain ⟨entry', -, hparent', hentry'⟩ := hbroken top htop hnone (hcycle.above hway)
  have hsame : entry = entry' := (hentry.along hway (hcycle.back hway)).unique hentry'
  rw [← hsame] at hparent'
  have hpid : top.process.pid = row.process.pid := (hcycle.above hway).inj hcycle hparent' hparent
  rw [List.inj_on_of_nodup_map h.once htop hrow hpid] at hnone
  exact hnone

/-- **The shape of a rebuild.** -/
theorem Forest.mem_shape (h : Forest rows direct store)
    (hbroken : ∀ row ∈ store, row.parent = none → OnCycle (parentPid rows) row.process.pid →
      BrokenAt rows direct row.process.pid)
    {pid : Nat} {parent : Option Nat} : (pid, parent) ∈ shape store ↔ ShownPid rows direct pid ∧
      (BrokenAt rows direct pid ∧ parent = none ∨ ¬ BrokenAt rows direct pid ∧ parent = parentPid rows pid) := by
  have hplace : ∀ row ∈ store, BrokenAt rows direct row.process.pid ∧ row.parent = none ∨
      ¬ BrokenAt rows direct row.process.pid ∧ row.parent = parentPid rows row.process.pid := by
    intro row hrow
    by_cases hat : BrokenAt rows direct row.process.pid
    · exact .inl ⟨hat, h.top_of_brokenAt hbroken hrow hat⟩
    · refine .inr ⟨hat, (h.placed row hrow).resolve_right fun hcycle => hat ?_⟩
      exact hbroken row hrow hcycle.1 hcycle.2
  constructor
  · intro hmem
    obtain ⟨row, hrow, heq⟩ := List.mem_map.mp hmem
    cases heq
    exact ⟨(h.shown _).mp (List.mem_map_of_mem hrow), hplace row hrow⟩
  · intro hplaced
    obtain ⟨hshown, hparent⟩ := hplaced
    obtain ⟨row, hrow, rfl⟩ := List.mem_map.mp ((h.shown pid).mpr hshown)
    have hsame : parent = row.parent := by
      rcases hplace row hrow with ⟨hat, hrowParent⟩ | ⟨hat, hrowParent⟩
      · rcases hparent with ⟨-, hparent⟩ | ⟨hnot, -⟩
        · rw [hparent, hrowParent]
        · exact absurd hat hnot
      · rcases hparent with ⟨hat', -⟩ | ⟨-, hparent⟩
        · exact absurd hat' hat
        · rw [hparent, hrowParent]
    rw [hsame]
    exact List.mem_map_of_mem hrow

end

/-! ### As a list -/

/-- In a flat list each row is inserted by itself. -/
theorem append_flat (rows : List LsmProcessInfo) {visible : Nat → Bool} (depth : Nat) {s : BuildState} {index : Nat}
    (hfresh : s.inserted index = false) (hvisible : visible index = true) :
    appendProcessRecursive false rows visible (depth + 1) s index = some ((s.enter index).insert rows index none) := by
  simp [appendProcessRecursive, hfresh, hvisible]

theorem rebuild_flat (rows : List LsmProcessInfo) (direct : LsmProcessInfo → Bool) :
    rebuildDetailsModel false rows direct = some ((rows.filter direct).map fun process => ⟨process, none⟩) := by
  have hloop : ∀ n ≤ rows.length, ∃ s, (List.range n).foldlM (fun s index =>
      if visibleRows false rows direct index then
        appendProcessRecursive false rows (visibleRows false rows direct) rows.length s index else some s)
      ({} : BuildState) = some s ∧ (∀ k, n ≤ k → s.inserted k = false) ∧
        s.store = ((rows.take n).filter direct).map fun process => ⟨process, none⟩ := by
    intro n hn
    induction n with
    | zero => exact ⟨{}, rfl, fun _ _ => rfl, rfl⟩
    | succ n ih =>
      obtain ⟨s, heq, hfresh, hstore⟩ := ih (Nat.le_of_succ_le hn)
      obtain ⟨depth, hdepth⟩ := Nat.exists_eq_add_of_lt (show 0 < rows.length by omega)
      rw [List.range_succ, List.foldlM_append, heq, Option.bind_eq_bind, Option.bind_some, List.foldlM_cons,
        List.take_succ_eq_append_getElem hn, List.filter_append, List.map_append]
      have hvisible : visibleRows false rows direct n = direct rows[n] := by
        rw [← rowAt_eq hn]
        rfl
      by_cases hdirect : direct rows[n] = true
      · refine ⟨(s.enter n).insert rows n none, ?_, ?_, ?_⟩
        · rw [if_pos (hvisible.trans hdirect), hdepth, append_flat rows _ (hfresh n (Nat.le_refl n)) (hvisible.trans hdirect)]
          rfl
        · intro k hk
          simp [BuildState.insert, BuildState.enter, show k ≠ n by omega, hfresh k (by omega)]
        · simp [BuildState.insert, BuildState.enter, hstore, hdirect, rowAt_eq hn]
      · refine ⟨s, ?_, fun k hk => hfresh k (by omega), ?_⟩
        · rw [if_neg (by rw [hvisible]; exact hdirect)]
          rfl
        · simp [hstore, hdirect]
  obtain ⟨s, heq, -, hstore⟩ := hloop rows.length (Nat.le_refl _)
  rw [List.take_length] at hstore
  rw [rebuildDetailsModel, heq, Option.map_some, hstore]

/-! ### One view of two snapshots -/

/-- The processes a page shows. -/
def ShownIn (treeMode : Bool) (rows : List LsmProcessInfo) (direct : LsmProcessInfo → Bool) (pid : Nat) : Prop :=
  if treeMode then ShownPid rows direct pid else ∃ process ∈ rows, direct process = true ∧ process.pid = pid

/-- The processes shown are the same, and in a tree each cycle among them is entered at the same one. -/
structure SameView (treeMode : Bool) (direct : LsmProcessInfo → Bool) (rows rows' : List LsmProcessInfo) : Prop where
  shown : ∀ pid, ShownIn treeMode rows direct pid ↔ ShownIn treeMode rows' direct pid
  entry : treeMode = true → ∀ pid, ShownPid rows direct pid → OnCycle (parentPid rows) pid →
    ∀ entry, EntryPid rows direct pid entry ↔ EntryPid rows' direct pid entry

/-- A rebuild shows each of its processes once, and none but those of the snapshot. -/
theorem rebuild_some (treeMode : Bool) (snap : ProcessSnapshot) (direct : LsmProcessInfo → Bool) :
    ∃ store, rebuildDetailsModel treeMode snap.rows direct = some store ∧ (∀ row ∈ store, row.process ∈ snap.rows) ∧
      (store.map (·.process.pid)).Nodup ∧ ∀ pid, pid ∈ store.map (·.process.pid) ↔ ShownIn treeMode snap.rows direct pid := by
  cases treeMode with
  | true =>
    obtain ⟨store, heq, hforest, -⟩ := rebuild_rows snap direct
    exact ⟨store, heq, hforest.processes, hforest.once, hforest.shown⟩
  | false =>
    refine ⟨_, rebuild_flat snap.rows direct, ?_, ?_, ?_⟩
    · intro row hrow
      obtain ⟨process, hprocess, rfl⟩ := List.mem_map.mp hrow
      exact (List.mem_filter.mp hprocess).1
    · rw [List.map_map]
      exact snap.distinct.sublist (List.filter_sublist.map _)
    · intro pid
      simp [ShownIn, and_assoc]

theorem nodup_shape {store : List DetailsRow} (h : (store.map (·.process.pid)).Nodup) : (shape store).Nodup := by
  refine List.Nodup.of_map Prod.fst ?_
  rw [shape, List.map_map]
  exact h

theorem shape_pid_iff {store : List DetailsRow} {pid : Nat} :
    pid ∈ store.map (·.process.pid) ↔ ∃ parent, (pid, parent) ∈ shape store := by
  constructor
  · intro h
    obtain ⟨row, hrow, rfl⟩ := List.mem_map.mp h
    exact ⟨row.parent, List.mem_map_of_mem hrow⟩
  · intro h
    obtain ⟨parent, hmem⟩ := h
    obtain ⟨row, hrow, heq⟩ := List.mem_map.mp hmem
    cases heq
    exact List.mem_map_of_mem hrow

section
variable {rows rows' : List LsmProcessInfo} {direct : LsmProcessInfo → Bool} {store store' : List DetailsRow}

/-- What is broken alike is entered alike. -/
theorem entry_of_shape (h : Forest rows direct store)
    (hbroken : ∀ row ∈ store, row.parent = none → OnCycle (parentPid rows) row.process.pid →
      BrokenAt rows direct row.process.pid)
    (hbroken' : ∀ row ∈ store', row.parent = none → OnCycle (parentPid rows') row.process.pid →
      BrokenAt rows' direct row.process.pid)
    (hparents : parentPid rows = parentPid rows') (hsub : ∀ e ∈ shape store, e ∈ shape store') {pid : Nat}
    (hshown : ShownPid rows direct pid) (hcycle : OnCycle (parentPid rows) pid) {entry : Nat}
    (hentry : EntryPid rows direct pid entry) : EntryPid rows' direct pid entry := by
  obtain ⟨root, ⟨hway, top, htop, rfl, hnone⟩, -⟩ := h.broken pid hshown hcycle
  have hback := hcycle.back hway
  obtain ⟨next, -, hparent, hat⟩ := hbroken top htop hnone (hcycle.above hway)
  have hmem : (top.process.pid, (none : Option Nat)) ∈ shape store' := by
    rw [← hnone]
    exact hsub _ (List.mem_map_of_mem htop)
  obtain ⟨top', htop', heq⟩ := List.mem_map.mp hmem
  obtain ⟨hpid, hnone'⟩ := Prod.mk.inj heq
  obtain ⟨next', -, hparent', hat'⟩ := hbroken' top' htop' hnone' (by
    rw [hpid, ← hparents]
    exact hcycle.above hway)
  rw [hpid] at hparent' hat'
  rw [hparents, hparent'] at hparent
  cases hparent
  have hsame : entry = next := (hentry.along hway hback).unique hat
  rw [hsame]
  rw [hparents] at hway hback
  exact hat'.along hback hway

/-- In tree mode. -/
theorem Forest.shape_perm_iff (h : Forest rows direct store) (h' : Forest rows' direct store')
    (hbroken : ∀ row ∈ store, row.parent = none → OnCycle (parentPid rows) row.process.pid →
      BrokenAt rows direct row.process.pid)
    (hbroken' : ∀ row ∈ store', row.parent = none → OnCycle (parentPid rows') row.process.pid →
      BrokenAt rows' direct row.process.pid)
    (hparents : parentPid rows = parentPid rows') :
    (shape store).Perm (shape store') ↔ SameView true direct rows rows' := by
  constructor
  · intro hperm
    have hshown : ∀ pid, ShownPid rows direct pid ↔ ShownPid rows' direct pid := by
      intro pid
      rw [← h.shown, ← h'.shown, shape_pid_iff, shape_pid_iff]
      exact exists_congr fun parent => hperm.mem_iff
    refine ⟨hshown, fun _ pid hpid hcycle entry => ⟨?_, ?_⟩⟩
    · exact entry_of_shape h hbroken hbroken' hparents (fun e he => hperm.mem_iff.mp he) hpid hcycle
    · exact entry_of_shape h' hbroken' hbroken hparents.symm (fun e he => hperm.mem_iff.mpr he) ((hshown pid).mp hpid)
        (hparents ▸ hcycle)
  · intro hview
    have hshown : ∀ pid, ShownPid rows direct pid ↔ ShownPid rows' direct pid := hview.shown
    refine (List.perm_ext_iff_of_nodup (nodup_shape h.once) (nodup_shape h'.once)).mpr fun e => ?_
    obtain ⟨pid, parent⟩ := e
    rw [h.mem_shape hbroken, h'.mem_shape hbroken', ← hshown pid, ← hparents]
    refine and_congr_right fun hpid => ?_
    have hat : BrokenAt rows direct pid ↔ BrokenAt rows' direct pid := by
      unfold BrokenAt
      rw [← hparents]
      exact exists_congr fun entry => and_congr_right fun hcycle => and_congr_right fun _ => hview.entry rfl pid hpid hcycle entry
    rw [hat]

end

/-- **Two snapshots of one structure are rebuilt to the same shape where their view is the same.** -/
theorem shape_perm_iff (treeMode : Bool) {snap snap' : ProcessSnapshot} (hsame : SameStructure snap.rows snap'.rows)
    (direct : LsmProcessInfo → Bool) {store store' : List DetailsRow}
    (hstore : rebuildDetailsModel treeMode snap.rows direct = some store)
    (hstore' : rebuildDetailsModel treeMode snap'.rows direct = some store') :
    (shape store).Perm (shape store') ↔ SameView treeMode direct snap.rows snap'.rows := by
  cases treeMode with
  | true =>
    obtain ⟨_, heq, h, hbroken⟩ := rebuild_rows snap direct
    obtain ⟨_, heq', h', hbroken'⟩ := rebuild_rows snap' direct
    rw [hstore] at heq
    rw [hstore'] at heq'
    cases heq
    cases heq'
    exact h.shape_perm_iff h' hbroken hbroken' hsame.parentPid_eq
  | false =>
    obtain ⟨_, heq, -, honce, hshown⟩ := rebuild_some false snap direct
    obtain ⟨_, heq', -, honce', hshown'⟩ := rebuild_some false snap' direct
    rw [hstore] at heq
    rw [hstore'] at heq'
    cases heq
    cases heq'
    rw [List.perm_ext_iff_of_nodup (nodup_shape honce) (nodup_shape honce')]
    have htop : ∀ {rows store}, rebuildDetailsModel false rows direct = some store →
        ∀ {pid parent}, (pid, parent) ∈ shape store ↔ parent = none ∧ ShownIn false rows direct pid := by
      intro rows store hrebuild pid parent
      rw [rebuild_flat] at hrebuild
      cases hrebuild
      constructor
      · intro h
        obtain ⟨row, hrow, heq⟩ := List.mem_map.mp h
        obtain ⟨process, hprocess, rfl⟩ := List.mem_map.mp hrow
        cases heq
        obtain ⟨hmem, hdirect⟩ := List.mem_filter.mp hprocess
        exact ⟨rfl, process, hmem, hdirect, rfl⟩
      · intro h
        obtain ⟨rfl, process, hmem, hdirect, rfl⟩ := h
        exact List.mem_map.mpr ⟨⟨process, none⟩, List.mem_map_of_mem (List.mem_filter.mpr ⟨hmem, hdirect⟩), rfl⟩
    constructor
    · intro hmem
      refine ⟨fun pid => ?_, fun h => absurd h (by decide)⟩
      have hpid := hmem (pid, none)
      rw [htop hstore, htop hstore'] at hpid
      simpa using hpid
    · intro hview e
      rw [htop hstore, htop hstore', hview.shown]

end SystemMonitor.Pages
